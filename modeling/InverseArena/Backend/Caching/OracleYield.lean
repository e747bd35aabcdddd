import InverseArena.Backend.Caching.Transparency
import InverseArena.Library.Buffers

/-!
# The yield of the oracle

`routes/oracle.ts`, with any number of requests under way: the GETs of `/yield` behind
`cacheMiddleware`, whose handler reads the key that the middleware has read, and the POSTs of the
webhook, which write it. The value of a webhook is stored for good; what the middleware stores, it
stores for a minute, and in place of what is there. Redis has a clock here, and may refuse any
command.

Results:
* `update_lasts_iff`: when an update is what all later GETs are answered with.
* `answers_of_run`: whose values the GETs are answered with.
-/

namespace InverseArena.Backend.Caching.OracleYield

open Transition

/-! ## `POST /yield` -/

/-- The secret of the webhook, HMAC-SHA256 in hexadecimal digits, the time at which the module
    was loaded, and what `JSON.parse` throws. -/
structure Oracle where
  secret : Option Text
  hmac : Text → Text → Text
  startedAt : String
  syntaxError : Thrown

/-- An answer: its status and its body. -/
structure Answer where
  status : ℕ
  body : Json

/-- What `errorHandler` answers. -/
def Answer.ofError (err : Thrown) : Answer where
  status := (errorHandler err).status
  body := (errorHandler err).body.json

/-- A `YieldData` of the network of `DEFAULT_YIELD`. -/
def yieldData (protocol currentAPY baseRate surgeMultiplier : Json) (lastUpdated : String)
    (asset : Json) : Json :=
  .object [field "protocol" protocol, field "currentAPY" currentAPY, field "baseRate" baseRate,
    field "surgeMultiplier" surgeMultiplier, field "lastUpdated" (string lastUpdated),
    field "asset" asset, field "network" (string "stellar")]

def defaultProtocol : Json := string "Ondo USDY"
def defaultAPY : Json := .number (.ofRat (525 / 100))
def defaultRate : Json := .number (.ofRat (48 / 10))
def defaultMultiplier : Json := .number (.ofRat (10 / 10))
def defaultAsset : Json := string "USDY"

/-- `DEFAULT_YIELD`. -/
def DEFAULT_YIELD (o : Oracle) : Json :=
  yieldData defaultProtocol defaultAPY defaultRate defaultMultiplier o.startedAt defaultAsset

/-- `body[key] ?? value`. -/
def orDefault (body : Json) (key : String) (value : Json) : Json :=
  match body with
  | .object fields =>
    match Json.field? fields (.ofString key) with
    | none | some .null => value
    | some given => given
  | _ => value

/-- `updatedYield`, of the body of the request and the time. -/
def updatedYield (body : Json) (now : String) : Json :=
  yieldData (orDefault body "protocol" defaultProtocol) (orDefault body "currentAPY" defaultAPY)
    (orDefault body "baseRate" defaultRate)
    (orDefault body "surgeMultiplier" defaultMultiplier) now
    (orDefault body "asset" defaultAsset)

/-- `verifyWebhookSignature(secret)`: what it calls `next` with. -/
def verifyWebhookSignature (o : Oracle) (secret : Text) (signature : Option Text) (body : Json) :
    Option Thrown :=
  match signature with
  | none | some [] =>
    some (apiError 401 "WEBHOOK_SIGNATURE_MISSING" "Missing webhook signature")
  | some signature =>
    let expected := Text.ofString "sha256=" ++ o.hmac secret body.stringify
    if Buffers.utf8Encode signature = Buffers.utf8Encode expected then none
    else some (apiError 401 "WEBHOOK_SIGNATURE_INVALID" "Invalid webhook signature")

/-- What the webhook is answered, if it may not write. -/
def rejection (o : Oracle) (signature : Option Text) (body : Json) : Option Answer :=
  match o.secret with
  | none | some [] =>
    some ⟨503, .object [field "error" (string "ORACLE_WEBHOOK_SECRET not configured")]⟩
  | some secret => (verifyWebhookSignature o secret signature body).map .ofError

/-- The signature is that of the body under the secret that is configured. -/
def Signed (o : Oracle) (signature : Option Text) (body : Json) : Prop :=
  ∃ secret ∈ o.secret, ∃ given ∈ signature, secret ≠ [] ∧
    Buffers.utf8Encode given =
      Buffers.utf8Encode (Text.ofString "sha256=" ++ o.hmac secret body.stringify)

theorem signed_of_rejection {o : Oracle} {signature : Option Text} {body : Json}
    (h : rejection o signature body = none) : Signed o signature body := by
  unfold rejection at h
  split at h
  · cases h
  · cases h
  · rename_i secret hne hsecret
    rw [Option.map_eq_none_iff] at h
    unfold verifyWebhookSignature at h
    split at h
    · cases h
    · cases h
    · rename_i given _
      dsimp only at h
      split_ifs at h with heq
      exact ⟨secret, hsecret, given, rfl, fun hnil => hne (hnil ▸ rfl), heq⟩

/-! ## `GET /yield` -/

/-- The handler, of what Redis holds. -/
def handler (o : Oracle) (data : Option Text) : Answer :=
  match data with
  | none | some [] => ⟨200, DEFAULT_YIELD o⟩
  | some text =>
    match Json.parse text with
    | none => .ofError o.syntaxError
    | some .null => ⟨200, DEFAULT_YIELD o⟩
    | some value => ⟨200, value⟩

/-- `cacheTTL.ORACLE_YIELD`, in milliseconds. -/
def ORACLE_YIELD : ℕ := 60 * 1000

/-- What Redis holds under `oracle:yield`, and until when. -/
structure Cell where
  text : Text
  expires : Option ℕ

/-- Where a request stands. -/
inductive Phase where
  /-- In `await cache.get(key)` of the middleware, before Redis reads. -/
  | looking
  /-- Redis has found a value. -/
  | found (value : Json)
  /-- `next()` has been called, and the handler is in `await cache.get(key)`. -/
  | handling
  /-- The handler has read what it answers. -/
  | answering (answer : Answer)
  /-- The answer is sent, and `cache.set` is under way. -/
  | storing (answer : Answer)
  /-- A webhook that may write is in `await redis.set`. -/
  | updating (body : Body) (now : String)
  | finished

/-- A GET that has missed, and whose `cache.set` is still to come. -/
def Phase.missed : Phase → Bool
  | .handling | .answering _ | .storing _ => true
  | _ => false

/-- A GET that has been answered: `hit` is its `X-Cache`. -/
structure Served where
  request : ℕ
  hit : Bool
  answer : Answer

/-- The clock of Redis, the cell, the requests, and the answers to GETs and to webhooks, the last
    one first. -/
structure State where
  now : ℕ
  cell : Option Cell
  requests : List Phase
  served : List Served
  acknowledged : List (ℕ × Answer)

def State.initial (now : ℕ) : State := ⟨now, none, [], [], []⟩

/-- The request `r` goes on to `phase`. -/
def State.move (s : State) (r : ℕ) (phase : Phase) : State :=
  { s with requests := s.requests.set r phase }

/-- `redis.get(key)`. -/
def State.data (s : State) : Option Text :=
  (s.cell.filter fun cell => cell.expires.all (s.now ≤ ·)).map (·.text)

/-- The steps; `reached` says whether Redis takes the command, `failure` is what it refuses it
    with. -/
inductive Step where
  | get
  | post (signature : Option Text) (body : Body) (now : String)
  | read (r : ℕ) (reached : Bool)
  | hit (r : ℕ)
  | compute (r : ℕ) (failure : Option Thrown)
  | answer (r : ℕ)
  | write (r : ℕ) (reached : Bool)
  | update (r : ℕ) (failure : Option Thrown)
  | wait (ms : ℕ)

/-- What a step leads to; `none` where it cannot be taken. -/
def Step.next (o : Oracle) : Step → State → Option State
  | .get, s => some { s with requests := s.requests ++ [.looking] }
  | .post signature body now, s =>
    match rejection o signature body.json with
    | some reply => some
        { s with
          requests := s.requests ++ [.finished]
          acknowledged := (s.requests.length, reply) :: s.acknowledged }
    | none => some { s with requests := s.requests ++ [.updating body now] }
  | .read r reached, s =>
    match s.requests[r]? with
    | some .looking =>
      match if reached then Caching.get s.data else none with
      | some value => some (s.move r (.found value))
      | none => some (s.move r .handling)
    | _ => none
  | .hit r, s =>
    match s.requests[r]? with
    | some (.found value) => some
        { s.move r .finished with served := ⟨r, true, 200, value⟩ :: s.served }
    | _ => none
  | .compute r failure, s =>
    match s.requests[r]? with
    | some .handling => some (s.move r (.answering (match failure with
        | some err => .ofError err
        | none => handler o s.data)))
    | _ => none
  | .answer r, s =>
    match s.requests[r]? with
    | some (.answering reply) => some
        { s.move r (.storing reply) with served := ⟨r, false, reply⟩ :: s.served }
    | _ => none
  | .write r reached, s =>
    match s.requests[r]? with
    | some (.storing reply) =>
      if reached then some
        { s.move r .finished with
          cell := some ⟨reply.body.stringify, some (s.now + ORACLE_YIELD)⟩ }
      else some (s.move r .finished)
    | _ => none
  | .update r failure, s =>
    match s.requests[r]? with
    | some (.updating body now) =>
      match failure with
      | none => some
          { s.move r .finished with
            cell := some ⟨(updatedYield body.json now).stringify, none⟩
            acknowledged := (r, ⟨200, updatedYield body.json now⟩) :: s.acknowledged }
      | some err => some
          { s.move r .finished with acknowledged := (r, .ofError err) :: s.acknowledged }
    | _ => none
  | .wait ms, s => some { s with now := s.now + ms }

/-- A step of the system. -/
def Step.Leads (o : Oracle) (s : State) (a : Step) (u : State) : Prop := a.next o s = some u

/-- No update is stored, and Redis does not refuse to look for one. -/
def Step.Quiet : Step → Prop
  | .update _ none => False
  | .read _ false => False
  | _ => True

variable {o : Oracle} {s t u w : State} {a : Step} {r n : ℕ} {phase : Phase} {answer : Answer}
variable {tr : List (State × Step)} {body : Body} {time : String}

/-! ## What a step does -/

/-- The steps, one by one. -/
inductive Effect (o : Oracle) (s : State) : Step → State → Prop
  | arrived : Effect o s .get { s with requests := s.requests ++ [.looking] }
  | rejected {signature : Option Text} {body : Body} {time : String} {reply : Answer}
    (h : rejection o signature body.json = some reply) :
    Effect o s (.post signature body time)
      { s with
        requests := s.requests ++ [.finished]
        acknowledged := (s.requests.length, reply) :: s.acknowledged }
  | accepted {signature : Option Text} {body : Body} {time : String}
    (h : rejection o signature body.json = none) :
    Effect o s (.post signature body time)
      { s with requests := s.requests ++ [.updating body time] }
  | found {r : ℕ} {value : Json} (hr : s.requests[r]? = some .looking)
    (h : Caching.get s.data = some value) :
    Effect o s (.read r true) (s.move r (.found value))
  | missed {r : ℕ} {reached : Bool} (hr : s.requests[r]? = some .looking)
    (h : reached = true → Caching.get s.data = none) :
    Effect o s (.read r reached) (s.move r .handling)
  | hit {r : ℕ} {value : Json} (hr : s.requests[r]? = some (.found value)) :
    Effect o s (.hit r) { s.move r .finished with served := ⟨r, true, 200, value⟩ :: s.served }
  | read {r : ℕ} (hr : s.requests[r]? = some .handling) :
    Effect o s (.compute r none) (s.move r (.answering (handler o s.data)))
  | failed {r : ℕ} {err : Thrown} (hr : s.requests[r]? = some .handling) :
    Effect o s (.compute r (some err)) (s.move r (.answering (.ofError err)))
  | answered {r : ℕ} {reply : Answer} (hr : s.requests[r]? = some (.answering reply)) :
    Effect o s (.answer r)
      { s.move r (.storing reply) with served := ⟨r, false, reply⟩ :: s.served }
  | written {r : ℕ} {reply : Answer} (hr : s.requests[r]? = some (.storing reply)) :
    Effect o s (.write r true)
      { s.move r .finished with
        cell := some ⟨reply.body.stringify, some (s.now + ORACLE_YIELD)⟩ }
  | unwritten {r : ℕ} {reply : Answer} (hr : s.requests[r]? = some (.storing reply)) :
    Effect o s (.write r false) (s.move r .finished)
  | updated {r : ℕ} {body : Body} {time : String}
    (hr : s.requests[r]? = some (.updating body time)) :
    Effect o s (.update r none)
      { s.move r .finished with
        cell := some ⟨(updatedYield body.json time).stringify, none⟩
        acknowledged := (r, ⟨200, updatedYield body.json time⟩) :: s.acknowledged }
  | refused {r : ℕ} {body : Body} {time : String} {err : Thrown}
    (hr : s.requests[r]? = some (.updating body time)) :
    Effect o s (.update r (some err))
      { s.move r .finished with acknowledged := (r, .ofError err) :: s.acknowledged }
  | waited {ms : ℕ} : Effect o s (.wait ms) { s with now := s.now + ms }

theorem Step.Leads.effect (h : a.Leads o s u) : Effect o s a u := by
  unfold Step.Leads at h
  cases a with
  | get =>
    cases h
    exact .arrived
  | post signature body time =>
    simp only [Step.next] at h
    split at h
    · rename_i reply hreply
      cases h
      exact .rejected hreply
    · rename_i hnone
      cases h
      exact .accepted hnone
  | read r reached =>
    simp only [Step.next] at h
    split at h
    · rename_i hr
      split at h
      · rename_i value hvalue
        cases h
        cases reached with
        | true => exact .found hr hvalue
        | false => cases hvalue
      · rename_i hnone
        cases h
        refine .missed hr fun hreached => ?_
        rw [← hnone, if_pos hreached]
    · cases h
  | hit r =>
    simp only [Step.next] at h
    split at h
    · rename_i value hr
      cases h
      exact .hit hr
    · cases h
  | compute r failure =>
    simp only [Step.next] at h
    split at h
    · rename_i hr
      cases h
      cases failure with
      | none => exact .read hr
      | some err => exact .failed hr
    · cases h
  | answer r =>
    simp only [Step.next] at h
    split at h
    · rename_i reply hr
      cases h
      exact .answered hr
    · cases h
  | write r reached =>
    simp only [Step.next] at h
    split at h
    · rename_i reply hr
      cases reached with
      | true =>
        cases h
        exact .written hr
      | false =>
        cases h
        exact .unwritten hr
    · cases h
  | update r failure =>
    simp only [Step.next] at h
    split at h
    · rename_i body time hr
      cases failure with
      | none =>
        cases h
        exact .updated hr
      | some err =>
        cases h
        exact .refused hr
    · cases h
  | wait ms =>
    cases h
    exact .waited

/-! ## Values that are read back -/

theorem writable_ofRat {q x : ℚ} (h : Number.ofRat q = .finite x) (hx : Number.IsDouble x) :
    (Json.number (.ofRat q)).Writable := by
  rw [h]
  exact Json.writable_number hx

theorem writable_orDefault (h : body.json.Writable) {key : String} {value : Json}
    (hvalue : value.Writable) : (orDefault body.json key value).Writable := by
  unfold orDefault
  split
  · rename_i fields hfields
    rw [hfields, Json.writable_object] at h
    split
    · exact hvalue
    · exact hvalue
    · rename_i given _ hgiven
      obtain ⟨p, hp, rfl⟩ := Option.map_eq_some_iff.mp hgiven
      exact h p (List.mem_reverse.mp (List.mem_of_find?_eq_some hp))
  · exact hvalue

theorem writable_yieldData {protocol currentAPY baseRate surgeMultiplier asset : Json}
    (h : ∀ value ∈ [protocol, currentAPY, baseRate, surgeMultiplier, asset], value.Writable) :
    (yieldData protocol currentAPY baseRate surgeMultiplier time asset).Writable := by
  simp only [List.forall_mem_cons] at h
  unfold yieldData field
  rw [Json.writable_object]
  simp only [List.forall_mem_cons]
  exact ⟨h.1, h.2.1, h.2.2.1, h.2.2.2.1, Json.writable_string _, h.2.2.2.2.1,
    Json.writable_string _, nofun⟩

theorem isDouble_defaultRate : Number.IsDouble (5404319552844595 / 2 ^ 50) := by
  unfold Number.IsDouble
  decide +kernel

theorem isDouble_defaultAPY : Number.IsDouble (21 / 4) := by
  unfold Number.IsDouble
  decide +kernel

theorem writable_defaultRate : defaultRate.Writable :=
  writable_ofRat (by decide +kernel) isDouble_defaultRate

theorem writable_defaultAPY : defaultAPY.Writable :=
  writable_ofRat (by decide +kernel) isDouble_defaultAPY

theorem writable_defaultMultiplier : defaultMultiplier.Writable :=
  writable_ofRat (by decide +kernel) (Number.isDouble_natCast (by decide : 1 < 2 ^ 53))

theorem writable_defaultYield (o : Oracle) : (DEFAULT_YIELD o).Writable := by
  refine writable_yieldData ?_
  simp only [List.forall_mem_cons]
  exact ⟨Json.writable_string _, writable_defaultAPY, writable_defaultRate,
    writable_defaultMultiplier, Json.writable_string _, nofun⟩

theorem writable_updatedYield (body : Body) (time : String) :
    (updatedYield body.json time).Writable := by
  have h : ∀ {key value}, Json.Writable value → (orDefault body.json key value).Writable :=
    writable_orDefault body.writable
  refine writable_yieldData ?_
  simp only [List.forall_mem_cons]
  exact ⟨h (Json.writable_string _), h writable_defaultAPY, h writable_defaultRate,
    h writable_defaultMultiplier, h (Json.writable_string _), nofun⟩

/-- What a webhook has stored is read back. -/
theorem get_updatedYield (body : Body) (time : String) :
    Caching.get (some (updatedYield body.json time).stringify) =
      some (updatedYield body.json time) :=
  get_stringify ⟨_, writable_updatedYield body time⟩

/-! ## An update that lasts -/

/-- After a value has been stored for good, with `n` requests so far, and no GET that has missed:
    all other GETs find it. -/
structure Lasts (value : Json) (n : ℕ) (s : State) : Prop where
  cell : s.cell = some ⟨value.stringify, none⟩
  missed : ∀ phase ∈ s.requests, phase.missed = false
  found : ∀ r v, n ≤ r → s.requests[r]? = some (.found v) → v = value
  served : ∀ v ∈ s.served, n ≤ v.request → v.answer = ⟨200, value⟩

variable {value : Json}

theorem Lasts.move (h : Lasts value n s) (r : ℕ) (phase : Phase) (hmissed : phase.missed = false)
    (hfound : ∀ v, n ≤ r → phase = .found v → v = value) : Lasts value n (s.move r phase) where
  cell := h.cell
  missed q hq := by
    obtain hq | rfl := List.mem_or_eq_of_mem_set hq
    · exact h.missed q hq
    · exact hmissed
  found r' v hn hr := by
    change (s.requests.set r phase)[r']? = _ at hr
    rw [List.getElem?_set] at hr
    split_ifs at hr with heq hlt
    · subst heq
      exact hfound v hn (Option.some.inj hr)
    · exact h.found r' v hn hr
  served := h.served

theorem Lasts.append (h : Lasts value n s) (phase : Phase) (hmissed : phase.missed = false)
    (hfound : ∀ v, phase ≠ .found v) :
    Lasts value n { s with requests := s.requests ++ [phase] } where
  cell := h.cell
  missed q hq := by
    obtain hq | hq := List.mem_append.mp hq
    · exact h.missed q hq
    · rw [List.mem_singleton.mp hq]
      exact hmissed
  found r v hn hr := by
    rw [List.getElem?_append] at hr
    split_ifs at hr with hlt
    · exact h.found r v hn hr
    · have hmem := List.mem_of_getElem? hr
      exact absurd (List.mem_singleton.mp hmem).symm (hfound v)
  served := h.served

theorem Lasts.acknowledge (h : Lasts value n s) (replies : List (ℕ × Answer)) :
    Lasts value n { s with acknowledged := replies } :=
  ⟨h.cell, h.missed, h.found, h.served⟩

theorem Lasts.data (h : Lasts value n s) : s.data = some value.stringify := by
  unfold State.data
  rw [h.cell]
  rfl

theorem Lasts.not_missed (h : Lasts value n s) (hr : s.requests[r]? = some phase) :
    phase.missed ≠ true := by
  rw [h.missed phase (List.mem_of_getElem? hr)]
  exact Bool.false_ne_true

theorem Lasts.step (hread : Caching.get (some value.stringify) = some value)
    (h : Lasts value n s) (hquiet : a.Quiet) (hs : Effect o s a u) : Lasts value n u := by
  cases hs with
  | arrived => exact h.append _ rfl nofun
  | rejected _ => exact (h.append .finished rfl nofun).acknowledge _
  | accepted _ => exact h.append _ rfl nofun
  | @found r v hr hv =>
    rw [h.data, hread] at hv
    exact h.move _ _ rfl fun v' _ hv' => (Phase.found.inj hv').symm.trans (Option.some.inj hv).symm
  | @missed r reached hr hnone =>
    cases reached with
    | false => exact hquiet.elim
    | true =>
      have hgot := hnone rfl
      rw [h.data, hread] at hgot
      cases hgot
  | @hit r v hr =>
    have hmove := h.move r .finished rfl fun v _ hv => nomatch hv
    refine ⟨hmove.cell, hmove.missed, hmove.found, fun v' hv hn => ?_⟩
    obtain rfl | hv := List.mem_cons.mp hv
    · rw [h.found r v hn hr]
    · exact h.served v' hv hn
  | read hr | failed hr | answered hr | written hr | unwritten hr =>
    exact absurd rfl (h.not_missed hr)
  | updated _ => exact hquiet.elim
  | refused _ => exact (h.move _ .finished rfl nofun).acknowledge _
  | waited => exact ⟨h.cell, h.missed, h.found, h.served⟩

/-! ## An update that is forgotten -/

/-- A later GET may be answered with `DEFAULT_YIELD`, without another update. -/
def Forgets (o : Oracle) (n : ℕ) (s : State) : Prop :=
  ∃ tr w, Run (Step.Leads o) s tr w ∧ (∀ e ∈ tr, e.2.Quiet) ∧
    ∃ v ∈ w.served, n ≤ v.request ∧ v.answer = ⟨200, DEFAULT_YIELD o⟩

theorem Forgets.of_step (hs : a.Leads o s u) (hquiet : a.Quiet) (hu : Forgets o n u) :
    Forgets o n s := by
  obtain ⟨tr, w, hrun, hq, hw⟩ := hu
  refine ⟨tr ++ [(s, a)], w, (Run.single hs).append hrun, ?_, hw⟩
  rw [List.forall_mem_append]
  exact ⟨hq, List.forall_mem_singleton.mpr hquiet⟩

theorem requests_move (hr : s.requests[r]? = some phase) (phase' : Phase) :
    (s.move r phase').requests[r]? = some phase' := by
  obtain ⟨hlt, -⟩ := List.getElem?_eq_some_iff.mp hr
  exact List.getElem?_set_self hlt

theorem length_move : (s.move r phase).requests.length = s.requests.length := List.length_set

/-- Once nothing is stored, the next GET is answered with the default. -/
theorem forgets_of_data (hdata : s.data = none) (hn : n ≤ s.requests.length) : Forgets o n s := by
  refine .of_step (a := .get) rfl trivial ?_
  generalize hm : s.requests.length = m at hn
  have hlook : ({ s with requests := s.requests ++ [.looking] } : State).requests[m]? =
      some .looking := by
    rw [← hm]
    exact List.getElem?_concat_length
  have hdata' : ({ s with requests := s.requests ++ [.looking] } : State).data = none := hdata
  generalize ({ s with requests := s.requests ++ [.looking] } : State) = s₁ at hlook hdata'
  refine .of_step (a := .read m true) (u := s₁.move m .handling) ?_ trivial ?_
  · simp only [Step.Leads, Step.next, hlook, if_true, hdata', Caching.get]
  have hhandling := requests_move hlook .handling
  refine .of_step (a := .compute m none)
    (u := (s₁.move m .handling).move m (.answering ⟨200, DEFAULT_YIELD o⟩)) ?_ trivial ?_
  · have hnone : (s₁.move m .handling).data = none := hdata'
    simp only [Step.Leads, Step.next, hhandling, hnone, handler]
  have hanswering := requests_move hhandling (.answering ⟨200, DEFAULT_YIELD o⟩)
  generalize (s₁.move m .handling).move m (.answering ⟨200, DEFAULT_YIELD o⟩) = s₂ at hanswering
  refine .of_step (a := .answer m) (u := { s₂.move m (.storing ⟨200, DEFAULT_YIELD o⟩) with
    served := ⟨m, false, 200, DEFAULT_YIELD o⟩ :: s₂.served }) ?_ trivial
    ⟨[], _, .nil, List.forall_mem_nil _, ?_⟩
  · simp only [Step.Leads, Step.next, hanswering]
  · exact ⟨⟨m, false, 200, DEFAULT_YIELD o⟩, List.mem_cons_self, hn, rfl⟩

theorem data_of_expired {text : Text} {expires : ℕ} (hcell : s.cell = some ⟨text, some expires⟩)
    (hlate : expires < s.now) : s.data = none := by
  have hgone : ¬ s.now ≤ expires := Nat.not_le.mpr hlate
  unfold State.data
  rw [hcell]
  simp [Option.filter, hgone]

/-- What is stored for some time is gone after it. -/
theorem forgets_of_expiring {text : Text} {expires : ℕ}
    (hcell : s.cell = some ⟨text, some expires⟩) (hn : n ≤ s.requests.length) :
    Forgets o n s := by
  refine .of_step (a := .wait (expires + 1)) rfl trivial (forgets_of_data ?_ hn)
  refine data_of_expired hcell ?_
  show expires < s.now + (expires + 1)
  omega

theorem leads_write (hr : s.requests[r]? = some (.storing answer)) :
    (Step.write r true).Leads o s { s.move r .finished with
      cell := some ⟨answer.body.stringify, some (s.now + ORACLE_YIELD)⟩ } := by
  simp only [Step.Leads, Step.next, hr, if_true]

/-- A late `cache.set` stores its answer in the place of an update, for a minute. -/
theorem forgets_of_storing (hr : s.requests[r]? = some (.storing answer))
    (hn : n ≤ s.requests.length) : Forgets o n s :=
  .of_step (leads_write hr) trivial (forgets_of_expiring rfl (length_move.symm ▸ hn))

theorem forgets_of_answering (hr : s.requests[r]? = some (.answering answer))
    (hn : n ≤ s.requests.length) : Forgets o n s := by
  refine .of_step (a := .answer r) (u := { s.move r (.storing answer) with
    served := ⟨r, false, answer⟩ :: s.served }) ?_ trivial ?_
  · simp only [Step.Leads, Step.next, hr]
  · exact forgets_of_storing (requests_move hr _) (length_move.symm ▸ hn)

theorem forgets_of_handling (hr : s.requests[r]? = some .handling)
    (hn : n ≤ s.requests.length) : Forgets o n s := by
  refine .of_step (a := .compute r none)
    (u := s.move r (.answering (handler o s.data))) ?_ trivial ?_
  · simp only [Step.Leads, Step.next, hr]
  · exact forgets_of_answering (requests_move hr _) (length_move.symm ▸ hn)

theorem forgets_of_missed (hphase : phase ∈ s.requests) (hmissed : phase.missed = true)
    (hn : n ≤ s.requests.length) : Forgets o n s := by
  obtain ⟨r, hr⟩ := List.mem_iff_getElem?.mp hphase
  cases phase with
  | handling => exact forgets_of_handling hr hn
  | answering answer => exact forgets_of_answering hr hn
  | storing answer => exact forgets_of_storing hr hn
  | _ => cases hmissed

/-! ## Sample runs -/

/-- The secret is `secret`; of `hmac`, one value is used. -/
def sampleOracle : Oracle where
  secret := some (Text.ofString "secret")
  hmac _ _ :=
    Text.ofString "ab8f9769500b89c0000ce07a5e8e98b8cc27da2a403024c967903876b57c0290"
  startedAt := "2026-01-01T00:00:00.000Z"
  syntaxError := ⟨none, some "Unexpected end of JSON input", none, none, none, false⟩

def sampleBody : Body where
  json := .object [field "currentAPY" (.number (.finite 6))]
  writable := by
    rw [Json.writable_object]
    simp only [List.forall_mem_cons]
    exact ⟨Json.writable_number (Number.isDouble_natCast (by decide : 6 < 2 ^ 53)), nofun⟩

/-- A GET that misses, and a webhook that comes before its `cache.set`. -/
def sampleSteps : List Step :=
  [.get, .read 0 true, .compute 0 none, .post (some (Text.ofString
    "sha256=ab8f9769500b89c0000ce07a5e8e98b8cc27da2a403024c967903876b57c0290")) sampleBody
    "2026-01-02T00:00:00.000Z", .answer 0]

/-- Whether request `r` is a webhook that has not stored its value yet, which is of another time
    than the default. -/
def State.updates (s : State) (o : Oracle) (r : ℕ) : Bool :=
  match s.requests[r]? with
  | some (.updating _ time) =>
    decide (Text.ofString time ≠ Text.ofString o.startedAt)
  | _ => false

theorem exists_of_updates (h : s.updates o r = true) : ∃ body time,
    s.requests[r]? = some (.updating body time) ∧
      updatedYield body.json time ≠ DEFAULT_YIELD o := by
  unfold State.updates at h
  split at h
  · rename_i body time hr
    refine ⟨body, time, hr, fun heq => of_decide_eq_true h ?_⟩
    simp only [updatedYield, DEFAULT_YIELD, yieldData, field, string, Json.object.injEq,
      List.cons.injEq, Prod.mk.injEq, Json.string.injEq] at heq
    exact heq.2.2.2.2.1.2
  · cases h

/-- Executes steps from the start. -/
theorem exists_state (steps : List Step) {P : List (State × Step) → State → Prop}
    (h : ∃ r ∈ replay (fun a s => (a.next sampleOracle s).map fun u => (a, u)) steps []
      (.initial 0), P r.1 r.2) :
    ∃ tr s, Run (Step.Leads sampleOracle) (.initial 0) tr s ∧ P tr s := by
  refine exists_run_of_replay (fun m s a t hm => ?_) h
  obtain ⟨u, hu, heq⟩ := Option.map_eq_some_iff.mp hm
  cases heq
  exact hu

/-! ## Runs -/

/-- Only requests that have arrived are answered. -/
def Arrived (s : State) : Prop := ∀ v ∈ s.served, v.request < s.requests.length

theorem Arrived.move (h : Arrived s) (r : ℕ) (phase : Phase) : Arrived (s.move r phase) := by
  intro v hv
  rw [length_move]
  exact h v hv

theorem Arrived.serve (h : Arrived s) (hr : s.requests[r]? = some phase) (phase' : Phase)
    (hit : Bool) (answer : Answer) :
    Arrived { s.move r phase' with served := ⟨r, hit, answer⟩ :: s.served } := by
  intro v hv
  show v.request < (s.requests.set r phase').length
  rw [List.length_set]
  obtain rfl | hv := List.mem_cons.mp hv
  · exact (List.getElem?_eq_some_iff.mp hr).1
  · exact h v hv

theorem Arrived.append (h : Arrived s) (phase : Phase) (replies : List (ℕ × Answer)) :
    Arrived { s with requests := s.requests ++ [phase], acknowledged := replies } := by
  intro v hv
  show v.request < (s.requests ++ [phase]).length
  rw [List.length_append]
  exact Nat.lt_add_right _ (h v hv)

theorem Arrived.step (h : Arrived s) (hs : Effect o s a u) : Arrived u := by
  cases hs with
  | arrived => exact h.append _ _
  | rejected _ => exact h.append _ _
  | accepted _ => exact h.append _ _
  | found _ _ | missed _ _ | read _ | failed _ | unwritten _ => exact h.move _ _
  | hit hr => exact h.serve hr _ _ _
  | answered hr => exact h.serve hr _ _ _
  | @written r | @updated r | @refused r => exact h.move r .finished
  | waited => exact h

theorem arrived_of_run {now : ℕ} (hrun : Run (Step.Leads o) (.initial now) tr s) : Arrived s :=
  hrun.invariant (fun _ _ _ h hs => h.step hs.effect) nofun

/-- At the moment at which a webhook has stored an update (other than the default): all GETs that
    arrive later are answered with it, for as long as no other update is stored and Redis does not
    refuse to look for it, exactly if no GET is under way that has missed. -/
theorem update_lasts_iff {now : ℕ} (hrun : Run (Step.Leads o) (.initial now) tr t)
    (hphase : t.requests[r]? = some (.updating body time))
    (hne : updatedYield body.json time ≠ DEFAULT_YIELD o)
    (hstep : (Step.update r none).Leads o t u) :
    (∀ tr' w, Run (Step.Leads o) u tr' w → (∀ e ∈ tr', e.2.Quiet) →
        ∀ v ∈ w.served, u.requests.length ≤ v.request →
          v.answer = ⟨200, updatedYield body.json time⟩) ↔
      ∀ phase ∈ u.requests, phase.missed = false := by
  have harrived := (arrived_of_run hrun).step hstep.effect
  have hcell : u.cell = some ⟨(updatedYield body.json time).stringify, none⟩ := by
    simp only [Step.Leads, Step.next, hphase] at hstep
    cases hstep
    rfl
  constructor
  · intro hall phase hmem
    by_contra hmissed
    obtain ⟨tr', w, hrun', hquiet, v, hv, hn, hanswer⟩ :=
      forgets_of_missed (o := o) hmem (Bool.eq_true_of_not_eq_false hmissed) le_rfl
    rw [hall tr' w hrun' hquiet v hv hn] at hanswer
    exact hne (Answer.mk.inj hanswer).2
  · intro hnone tr' w hrun' hquiet
    have hlasts : Lasts (updatedYield body.json time) u.requests.length u := by
      refine ⟨hcell, hnone, fun r' v hn hr => ?_, fun v hv hn => ?_⟩
      · exact absurd (List.getElem?_eq_some_iff.mp hr).1 (Nat.not_lt.mpr hn)
      · exact absurd (harrived v hv) (Nat.not_lt.mpr hn)
    exact (hrun'.invariant_of_forall (I := Lasts (updatedYield body.json time) u.requests.length)
      (fun _ _ _ h hq hs => h.step (get_updatedYield body time) hq hs.effect) hquiet hlasts).served

/-- A webhook that comes before the `cache.set` of a GET that has missed is forgotten. -/
theorem update_lasts_iff_late : ∃ tr t u, ∃ (body : Body) (time : String),
    Run (Step.Leads sampleOracle) (.initial 0) tr t ∧
    t.requests[1]? = some (.updating body time) ∧ (Step.update 1 none).Leads sampleOracle t u ∧
    (∃ phase ∈ u.requests, phase.missed = true) ∧
    ((∀ tr' w, Run (Step.Leads sampleOracle) u tr' w → (∀ e ∈ tr', e.2.Quiet) →
        ∀ v ∈ w.served, u.requests.length ≤ v.request →
          v.answer = ⟨200, updatedYield body.json time⟩) ↔
      ∀ phase ∈ u.requests, phase.missed = false) := by
  obtain ⟨tr, t, hrun, hupdates, hmissed⟩ := exists_state sampleSteps
    (P := fun _ t => t.updates sampleOracle 1 = true ∧
      t.requests[0]?.map Phase.missed = some true) (by decide +kernel)
  obtain ⟨body, time, hr, hne⟩ := exists_of_updates hupdates
  obtain ⟨phase, hphase, hmissed⟩ := Option.map_eq_some_iff.mp hmissed
  have hstep : (Step.update 1 none).Leads sampleOracle t { t.move 1 .finished with
      cell := some ⟨(updatedYield body.json time).stringify, none⟩
      acknowledged := (1, ⟨200, updatedYield body.json time⟩) :: t.acknowledged } := by
    simp only [Step.Leads, Step.next, hr]
  have hkept : (t.move 1 .finished).requests[0]? = some phase := by
    rw [← hphase]
    exact List.getElem?_set_ne Nat.one_ne_zero
  exact ⟨tr, t, _, body, time, hrun, hr, hstep, ⟨phase, List.mem_of_getElem? hkept, hmissed⟩,
    update_lasts_iff hrun hr hne hstep⟩

/-! ## Whose values are answered -/

/-- Where a GET's answer after the steps `tr` comes from: it is the default, what a webhook that
    was not rejected has reported, or the body of an error with which Redis has refused a
    handler, sent with the status of the error or, from the cache, with 200. -/
def Known (o : Oracle) (tr : List (State × Step)) (answer : Answer) : Prop :=
  answer = ⟨200, DEFAULT_YIELD o⟩ ∨
  (∃ t signature body time, (t, .post signature body time) ∈ tr ∧
    Signed o signature body.json ∧ answer = ⟨200, updatedYield body.json time⟩) ∨
  ∃ t r err, (t, .compute r (some err)) ∈ tr ∧ answer.body = (Answer.ofError err).body ∧
    (answer.status = 200 ∨ answer.status = (Answer.ofError err).status)

theorem Known.mono (h : Known o tr answer) (e : State × Step) : Known o (e :: tr) answer := by
  obtain h | ⟨t, signature, body, time, hmem, h⟩ | ⟨t, r, err, hmem, h⟩ := h
  · exact .inl h
  · exact .inr (.inl ⟨t, signature, body, time, List.mem_cons_of_mem e hmem, h⟩)
  · exact .inr (.inr ⟨t, r, err, List.mem_cons_of_mem e hmem, h⟩)

/-- From the cache, an answer comes with 200. -/
theorem Known.cached (h : Known o tr answer) : Known o tr ⟨200, answer.body⟩ := by
  obtain rfl | ⟨t, signature, body, time, hmem, hok, rfl⟩ | ⟨t, r, err, hmem, hbody, -⟩ := h
  · exact .inl rfl
  · exact .inr (.inl ⟨t, signature, body, time, hmem, hok, rfl⟩)
  · exact .inr (.inr ⟨t, r, err, hmem, hbody, .inl rfl⟩)

/-- What is stored is read back. -/
theorem Known.get_stringify (h : Known o tr answer) :
    Caching.get (some answer.body.stringify) = some answer.body := by
  obtain rfl | ⟨t, signature, body, time, -, -, rfl⟩ | ⟨t, r, err, -, hbody, -⟩ := h
  · exact Caching.get_stringify ⟨_, writable_defaultYield o⟩
  · exact get_updatedYield body time
  · rw [hbody]
    exact get_stringify_eq_some.mpr ⟨rfl, errorHandler_ne_null err⟩

theorem handler_of_get {data : Option Text} (h : Caching.get data = some value) :
    handler o data = ⟨200, value⟩ := by
  cases data with
  | none => cases h
  | some text =>
    cases text with
    | nil => cases h
    | cons c cs =>
      simp only [Caching.get] at h
      simp only [handler]
      split at h
      · cases h
      · rename_i hnull
        rw [h]
        cases value with
        | null => exact absurd h hnull
        | _ => rfl

/-- What is known of a request. -/
def SoundPhase (o : Oracle) (tr : List (State × Step)) : Phase → Prop
  | .found value => Known o tr ⟨200, value⟩
  | .answering answer | .storing answer => Known o tr answer
  | .updating body time => Known o tr ⟨200, updatedYield body.json time⟩
  | .looking | .handling | .finished => True

theorem SoundPhase.mono (h : SoundPhase o tr phase) (e : State × Step) :
    SoundPhase o (e :: tr) phase := by
  cases phase with
  | looking | handling | finished => trivial
  | _ => exact Known.mono h e

/-- After the steps `tr`. -/
structure Sound (o : Oracle) (tr : List (State × Step)) (s : State) : Prop where
  cell : ∀ cell ∈ s.cell, ∃ value, Known o tr ⟨200, value⟩ ∧ cell.text = value.stringify
  requests : ∀ phase ∈ s.requests, SoundPhase o tr phase
  served : ∀ v ∈ s.served, Known o tr v.answer

theorem Sound.mono (h : Sound o tr s) (e : State × Step) : Sound o (e :: tr) s where
  cell cell hcell := by
    obtain ⟨value, hknown, htext⟩ := h.cell cell hcell
    exact ⟨value, hknown.mono e, htext⟩
  requests phase hphase := (h.requests phase hphase).mono e
  served v hv := (h.served v hv).mono e

theorem Sound.move (h : Sound o tr s) (r : ℕ) (phase : Phase) (hphase : SoundPhase o tr phase) :
    Sound o tr (s.move r phase) where
  cell := h.cell
  requests q hq := by
    obtain hq | rfl := List.mem_or_eq_of_mem_set hq
    · exact h.requests q hq
    · exact hphase
  served := h.served

theorem Sound.append (h : Sound o tr s) (phase : Phase) (hphase : SoundPhase o tr phase)
    (replies : List (ℕ × Answer)) :
    Sound o tr { s with requests := s.requests ++ [phase], acknowledged := replies } where
  cell := h.cell
  requests q hq := by
    obtain hq | hq := List.mem_append.mp hq
    · exact h.requests q hq
    · rw [List.mem_singleton.mp hq]
      exact hphase
  served := h.served

theorem Sound.serve (h : Sound o tr s) (r : ℕ) (phase : Phase) (hit : Bool)
    (hphase : SoundPhase o tr phase)
    (hanswer : Known o tr answer) :
    Sound o tr { s.move r phase with served := ⟨r, hit, answer⟩ :: s.served } where
  cell := h.cell
  requests := (h.move r phase hphase).requests
  served v hv := by
    obtain rfl | hv := List.mem_cons.mp hv
    · exact hanswer
    · exact h.served v hv

theorem Sound.store (h : Sound o tr s) (r : ℕ) (hvalue : Known o tr ⟨200, value⟩)
    (expires : Option ℕ) (replies : List (ℕ × Answer)) :
    Sound o tr { s.move r .finished with
      cell := some ⟨value.stringify, expires⟩, acknowledged := replies } where
  cell cell hcell := by
    obtain rfl := Option.some.inj hcell
    exact ⟨value, hvalue, rfl⟩
  requests := (h.move r .finished trivial).requests
  served := h.served

/-- What Redis holds. -/
theorem Sound.data (h : Sound o tr s) : s.data = none ∨ ∃ value, Known o tr ⟨200, value⟩ ∧
    s.data = some value.stringify := by
  cases hdata : s.data with
  | none => exact .inl rfl
  | some text =>
    obtain ⟨cell, hcell, rfl⟩ := Option.map_eq_some_iff.mp hdata
    obtain ⟨value, hknown, htext⟩ := h.cell cell ((Option.mem_filter_iff.mp hcell).1)
    exact .inr ⟨value, hknown, congrArg some htext⟩

theorem Sound.handler (h : Sound o tr s) : Known o tr (handler o s.data) := by
  obtain hnone | ⟨value, hknown, hdata⟩ := h.data
  · rw [hnone]
    exact .inl rfl
  · rw [hdata, handler_of_get hknown.get_stringify]
    exact hknown

theorem Sound.step (h : Sound o tr s) (hs : Effect o s a u) : Sound o ((s, a) :: tr) u := by
  have hm := h.mono (s, a)
  have hphase : ∀ {r phase}, s.requests[r]? = some phase → SoundPhase o ((s, a) :: tr) phase :=
    fun hr => hm.requests _ (List.mem_of_getElem? hr)
  cases hs with
  | arrived => exact hm.append .looking trivial _
  | rejected _ => exact hm.append .finished trivial _
  | accepted hnone =>
    refine hm.append (.updating _ _) ?_ _
    exact .inr (.inl ⟨s, _, _, _, List.mem_cons_self, signed_of_rejection hnone, rfl⟩)
  | found hr hget =>
    refine hm.move _ _ ?_
    obtain hnone | ⟨value, hknown, hdata⟩ := hm.data
    · rw [hnone] at hget
      cases hget
    · rw [hdata, hknown.get_stringify] at hget
      obtain rfl := Option.some.inj hget
      exact hknown
  | missed _ _ => exact hm.move _ .handling trivial
  | hit hr => exact hm.serve _ .finished _ trivial (hphase hr)
  | read hr => exact hm.move _ (.answering _) hm.handler
  | failed hr =>
    refine hm.move _ (.answering _) ?_
    exact .inr (.inr ⟨s, _, _, List.mem_cons_self, rfl, .inr rfl⟩)
  | answered hr =>
    have hknown := hphase hr
    exact hm.serve _ (.storing _) _ hknown hknown
  | written hr =>
    have hknown := hphase hr
    exact hm.store _ (Known.cached hknown) _ _
  | unwritten hr => exact hm.move _ .finished trivial
  | updated hr => exact hm.store _ (hphase hr) _ _
  | @refused r => exact ⟨hm.cell, (hm.move r .finished trivial).requests, hm.served⟩
  | waited => exact ⟨hm.cell, hm.requests, hm.served⟩

theorem sound_initial (now : ℕ) : Sound o [] (.initial now) where
  cell _ h := nomatch h
  requests _ h := nomatch h
  served _ h := nomatch h

/-- In every run, every GET is answered with the default, with what a webhook with the right
    signature has reported, or with the error with which Redis has refused a handler. -/
theorem answers_of_run {now : ℕ} (hrun : Run (Step.Leads o) (.initial now) tr w) :
    ∀ v ∈ w.served, Known o tr v.answer :=
  (hrun.history (I := Sound o) (sound_initial now) fun _ _ _ _ _ h hs => h.step hs.effect).served

/-- The webhook's value is answered, after it has been stored. -/
theorem answers_of_run_sample : ∃ tr w, Run (Step.Leads sampleOracle) (.initial 0) tr w ∧
    w.served.map (·.hit) = [true, false] ∧ ∀ v ∈ w.served, Known sampleOracle tr v.answer := by
  obtain ⟨tr, w, hrun, hserved⟩ := exists_state
    (sampleSteps ++ [.update 1 none, .get, .read 2 true, .hit 2])
    (P := fun _ w => w.served.map (·.hit) = [true, false]) (by decide +kernel)
  exact ⟨tr, w, hrun, hserved, answers_of_run hrun⟩

end InverseArena.Backend.Caching.OracleYield
