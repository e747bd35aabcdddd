import Mathlib.Algebra.Group.Nat.Defs
import Mathlib.Logic.Function.Basic
import Mathlib.Tactic.Common

/-!
# The shared poller of an arena

`backend/src/cache/arenaPoller.ts` for one arena: the poller states, of which one at most
is in the map, the clients that subscribe to them, and what the clients receive. What runs
between two awaits is one step. Each subscriber is an object of its own, as the route of
the stream makes them; times are left out.
-/

namespace InverseArena.Backend.Stream

/-- An entry of `recentEliminations`. -/
structure Elimination where
  id : String
  userId : String
  roundNumber : ℕ
  reason : Option String
  eliminatedAt : String
  deriving DecidableEq, Repr

/-- `ArenaSnapshot`. -/
structure ArenaSnapshot where
  arenaId : String
  currentRound : ℕ
  playerCount : ℕ
  survivorCount : ℕ
  status : String
  recentEliminations : List Elimination
  lastRoundState : Option String
  deriving DecidableEq, Repr

/-- The payload of `round_resolved`. -/
structure RoundResolved where
  arenaId : String
  roundNumber : ℕ
  playerCount : ℕ
  survivorCount : ℕ
  status : String
  deriving DecidableEq, Repr

/-- The payload of `game_finished`. -/
structure GameFinished where
  arenaId : String
  roundNumber : ℕ
  survivorCount : ℕ
  status : String
  deriving DecidableEq, Repr

/-- What is sent to a subscriber. -/
inductive StreamEvent where
  | heartbeat
  | snapshot (sequence : ℕ) (payload : ArenaSnapshot)
  | playerEliminated (sequence : ℕ) (payload : Elimination)
  | roundResolved (sequence : ℕ) (payload : RoundResolved)
  | gameFinished (sequence : ℕ) (payload : GameFinished)
  | error (sequence : ℕ) (message : String)
  deriving DecidableEq, Repr

/-- Where the loop of a poller stands. -/
inductive Polling where
  | stopped
  /-- A snapshot is awaited. -/
  | inFlight
  /-- `pollTimer` is set. -/
  | waiting (delay : ℕ)
  deriving DecidableEq, Repr

/-- `ArenaPollerState`. -/
structure ArenaPollerState where
  /-- In the order in which they have subscribed. -/
  subscribers : List ℕ
  polling : Polling
  heartbeatTimer : Bool
  lastRoundState : Option String
  lastStatus : Option String
  lastSurvivorCount : Option ℕ
  seenEliminations : List String
  sequence : ℕ
  consecutiveFailures : ℕ
  deriving DecidableEq, Repr

/-- The state that `subscribeArena` creates. -/
def ArenaPollerState.initial : ArenaPollerState :=
  ⟨[], .stopped, false, none, none, none, [], 0, 0⟩

def POLL_INTERVAL_MS : ℕ := 2500

def POLL_RETRY_MAX_MS : ℕ := 60000

/-- `computePollDelay(consecutiveFailures)`. -/
def computePollDelay (consecutiveFailures : ℕ) : ℕ :=
  if consecutiveFailures ≤ 0 then POLL_INTERVAL_MS
  else min (POLL_INTERVAL_MS * 2 ^ (consecutiveFailures - 1)) POLL_RETRY_MAX_MS

/-! ## Sending -/

/-- What changes while events are sent: the counter, the eliminations seen, and what each
    client has received. -/
structure Delivery where
  sequence : ℕ
  seen : List String
  received : ℕ → List StreamEvent

/-- A call of `sendEvent` or `sendSnapshot` with the next number; it throws if the number
    is one of `throws`. -/
def send (throws : List ℕ) (c : ℕ) (event : ℕ → StreamEvent) (d : Delivery) : Bool × Delivery :=
  let sequence := d.sequence + 1
  if sequence ∈ throws then (false, { d with sequence := sequence })
  else (true, { d with
    sequence := sequence
    received := Function.update d.received c (d.received c ++ [event sequence]) })

/-- The loop over `recentEliminations` for a subscriber (lines 172-182). -/
def sendEliminations (throws : List ℕ) (c : ℕ) : List Elimination → Delivery → Bool × Delivery
  | [], d => (true, d)
  | elimination :: rest, d =>
    if elimination.id ∈ d.seen then sendEliminations throws c rest d
    else
      let (sent, d') := send throws c (.playerEliminated · elimination)
        { d with seen := elimination.id :: d.seen }
      if sent then sendEliminations throws c rest d' else (false, d')

namespace ArenaPollerState

/-- `isFirstPoll`. -/
def isFirstPoll (state : ArenaPollerState) : Bool :=
  state.lastRoundState.isNone && state.lastStatus.isNone

/-- The round has been resolved since the last poll (lines 185-188). -/
def resolves (state : ArenaPollerState) (snapshot : ArenaSnapshot) : Bool :=
  snapshot.lastRoundState = some "RESOLVED" && state.lastRoundState ≠ some "RESOLVED"

/-- The game has finished since the last poll (lines 205-210). -/
def finishes (state : ArenaPollerState) (snapshot : ArenaSnapshot) : Bool :=
  let isTerminal := snapshot.status = "settled" || snapshot.survivorCount ≤ 1
  let wasTerminal := state.lastStatus = some "settled" ||
    (match state.lastSurvivorCount with
      | some count => count ≤ 1
      | none => false)
  isTerminal && !wasTerminal

/-- What a subscriber is told besides eliminations (lines 184-222). -/
def announceChanges (state : ArenaPollerState) (snapshot : ArenaSnapshot) (throws : List ℕ)
    (c : ℕ) (d : Delivery) : Delivery :=
  let (sent, d) :=
    if state.resolves snapshot then
      send throws c (.roundResolved · ⟨snapshot.arenaId, snapshot.currentRound,
        snapshot.playerCount, snapshot.survivorCount, snapshot.status⟩) d
    else (true, d)
  if !sent then d
  else if state.finishes snapshot then
    (send throws c (.gameFinished · ⟨snapshot.arenaId, snapshot.currentRound,
      snapshot.survivorCount, snapshot.status⟩) d).2
  else d

/-- The body of the loop over the subscribers at a later poll (lines 164-226). -/
def announce (state : ArenaPollerState) (snapshot : ArenaSnapshot) (throws : List ℕ)
    (d : Delivery) (c : ℕ) : Delivery :=
  let (sent, d) := sendEliminations throws c snapshot.recentEliminations d
  if sent then state.announceChanges snapshot throws c d else d

/-- What a poller starts to send from. -/
def delivery (state : ArenaPollerState) (received : ℕ → List StreamEvent) : Delivery :=
  ⟨state.sequence, state.seenEliminations, received⟩

/-- What has been sent is kept, and what the snapshot says. -/
def record (state : ArenaPollerState) (snapshot : ArenaSnapshot) (d : Delivery) :
    ArenaPollerState :=
  { state with
    lastRoundState := snapshot.lastRoundState
    lastStatus := some snapshot.status
    lastSurvivorCount := some snapshot.survivorCount
    seenEliminations := d.seen
    sequence := d.sequence
    consecutiveFailures := 0 }

/-- The first poll (lines 141-159). -/
def firstSnapshot (state : ArenaPollerState) (snapshot : ArenaSnapshot) (throws : List ℕ)
    (received : ℕ → List StreamEvent) : Delivery :=
  let d := state.delivery received
  state.subscribers.foldl (fun d c => (send throws c (.snapshot · snapshot) d).2)
    { d with seen := snapshot.recentEliminations.map (·.id) ++ d.seen }

/-- A later poll (lines 161-227). -/
def laterSnapshot (state : ArenaPollerState) (snapshot : ArenaSnapshot) (throws : List ℕ)
    (received : ℕ → List StreamEvent) : Delivery :=
  state.subscribers.foldl (state.announce snapshot throws) (state.delivery received)

/-- A poll that fails (lines 233-251). -/
def failed (state : ArenaPollerState) (message : String) (throws : List ℕ)
    (received : ℕ → List StreamEvent) : Delivery :=
  state.subscribers.foldl (fun d c => (send throws c (.error · message) d).2)
    (state.delivery received)

/-- What a poll sends. -/
def deliver (state : ArenaPollerState) (answer : Except String ArenaSnapshot)
    (throws : List ℕ) (received : ℕ → List StreamEvent) : Delivery :=
  match answer with
  | .ok snapshot =>
    if state.isFirstPoll then state.firstSnapshot snapshot throws received
    else state.laterSnapshot snapshot throws received
  | .error message => state.failed message throws received

/-- The state after a poll that has sent `d`, before the next one is scheduled. -/
def polled (state : ArenaPollerState) (answer : Except String ArenaSnapshot) (d : Delivery) :
    ArenaPollerState :=
  match answer with
  | .ok snapshot => state.record snapshot d
  | .error _ => { state with
      seenEliminations := d.seen
      sequence := d.sequence
      consecutiveFailures := state.consecutiveFailures + 1 }

/-- The `finally` block. -/
def schedule (state : ArenaPollerState) : ArenaPollerState :=
  { state with polling :=
      if 0 < state.subscribers.length then .waiting (computePollDelay state.consecutiveFailures)
      else .stopped }

/-- `startPollLoop(arenaId, state, arenaService)`, up to the first await. -/
def startPollLoop (state : ArenaPollerState) : ArenaPollerState :=
  { state with
    heartbeatTimer := true
    polling := if state.subscribers.length = 0 then .stopped else .inFlight }

/-- `stopPollLoop(state)`: a poll in flight goes on. -/
def stopPollLoop (state : ArenaPollerState) : ArenaPollerState :=
  { state with
    heartbeatTimer := false
    polling :=
      match state.polling with
      | .waiting _ => .stopped
      | polling => polling }

/-- `state.subscribers.add(subscriber)`, and the start of the loop. -/
def add (state : ArenaPollerState) (c : ℕ) : ArenaPollerState :=
  let state := { state with subscribers := state.subscribers ++ [c] }
  if state.subscribers.length = 1 then state.startPollLoop else state

/-- `state.subscribers.delete(subscriber)`. -/
def remove (state : ArenaPollerState) (c : ℕ) : ArenaPollerState :=
  { state with subscribers := state.subscribers.filter (· ≠ c) }

end ArenaPollerState

/-! ## The pollers of an arena -/

/-- The states that have been created, the one that is in the map, the state that each
    client has subscribed to, and what the clients have received. -/
structure ArenaStream where
  pollers : ℕ → Option ArenaPollerState
  created : ℕ
  current : Option ℕ
  homes : ℕ → Option ℕ
  received : ℕ → List StreamEvent

/-- What happens to the stream of an arena. -/
inductive StreamStep where
  /-- `subscribeArena(arenaId, subscriber, arenaService)`. -/
  | subscribe (c : ℕ)
  /-- A call of the function that `subscribeArena` has returned. -/
  | unsubscribe (c : ℕ)
  /-- The snapshot that a poller awaits arrives, or does not. -/
  | polled (σ : ℕ) (answer : Except String ArenaSnapshot) (throws : List ℕ)
  /-- `pollTimer` fires. -/
  | timeout (σ : ℕ)
  /-- `heartbeatTimer` fires; the calls for the clients in `throws` throw. -/
  | heartbeat (σ : ℕ) (throws : List ℕ)

namespace ArenaStream

/-- No client has subscribed. -/
def empty : ArenaStream := ⟨fun _ => none, 0, none, fun _ => none, fun _ => []⟩

/-- Changes the state of a poller. -/
def setPoller (t : ArenaStream) (σ : ℕ) (state : ArenaPollerState) : ArenaStream :=
  { t with pollers := Function.update t.pollers σ (some state) }

/-- `subscribeArena(arenaId, subscriber, arenaService)` (lines 62-84). -/
def subscribeArena (t : ArenaStream) (c : ℕ) : ArenaStream :=
  match t.current.bind fun σ => (t.pollers σ).map fun state => (σ, state) with
  | some (σ, state) =>
    { t.setPoller σ (state.add c) with homes := Function.update t.homes c (some σ) }
  | none =>
    { t.setPoller t.created (ArenaPollerState.initial.add c) with
      created := t.created + 1
      current := some t.created
      homes := Function.update t.homes c (some t.created) }

/-- The function that `subscribeArena` returns (lines 87-101). -/
def unsubscribe (t : ArenaStream) (c σ : ℕ) (state : ArenaPollerState) : ArenaStream :=
  let state := state.remove c
  if state.subscribers.length = 0 then
    { t.setPoller σ state.stopPollLoop with current := none }
  else t.setPoller σ state

/-- The heartbeat (lines 126-134). -/
def beat (t : ArenaStream) (state : ArenaPollerState) (throws : List ℕ) : ArenaStream :=
  { t with received := fun c =>
      if c ∈ state.subscribers ∧ c ∉ throws then t.received c ++ [.heartbeat] else t.received c }

/-- A step of the stream. -/
def step (t : ArenaStream) : StreamStep → Option ArenaStream
  | .subscribe c => if t.homes c = none then some (t.subscribeArena c) else none
  | .unsubscribe c => (t.homes c).bind fun σ => (t.pollers σ).map (t.unsubscribe c σ)
  | .polled σ answer throws => (t.pollers σ).bind fun state =>
    if state.polling = .inFlight then
      let d := state.deliver answer throws t.received
      some { t.setPoller σ (state.polled answer d).schedule with received := d.received }
    else none
  | .timeout σ => (t.pollers σ).bind fun state =>
    match state.polling with
    | .waiting _ => some (t.setPoller σ { state with
        polling := if state.subscribers.length = 0 then .stopped else .inFlight })
    | _ => none
  | .heartbeat σ throws => (t.pollers σ).bind fun state =>
    if state.heartbeatTimer = true then some (t.beat state throws) else none

/-- The steps as a transition system. -/
def Step (t : ArenaStream) (label : StreamStep) (u : ArenaStream) : Prop := t.step label = some u

end ArenaStream

end InverseArena.Backend.Stream
