import InverseArena.Frontend.ArenaStream
import InverseArena.Library.Transition

/-!
# The connection of a stream

The effect of `features/arena/useArenaStream.ts`: the `EventSource`, the retries and the watchdog,
over whole runs, in which the hook may be given another arena and may be unmounted. A source that
is closed dispatches nothing. Times are milliseconds.

Results:
* `connection_of_run`: one connection at most, always that of the arena in effect, never none for
  good, and nothing left of an effect that is over.
* `retry_of_run`: the delay of each retry.
* `heard_of_run`: how long a connection can be silent.
* `shown_of_run`: what is shown, and of which arena the snapshot is.
-/

namespace InverseArena.Frontend

open Transition

/-! ## The hook -/

/-- `UseArenaStreamReturn["status"]`. -/
inductive StreamStatus where
  | idle
  | connecting
  | connected
  | reconnecting
  | error
  deriving DecidableEq, Repr

/-- An `EventSource` for `/api/arenas/${arenaId}/stream`. -/
structure Source where
  arenaId : String
  closed : Bool
  deriving DecidableEq, Repr

/-- A timer that is set, by the effect for the arena. -/
structure Timer where
  id : ℕ
  arenaId : String
  due : ℕ
  deriving DecidableEq, Repr

/-- The hook, with the sources that it has made, the timers that are set, and the time. -/
structure StreamHook where
  now : ℕ
  sources : ℕ → Option Source
  created : ℕ
  timeouts : List Timer
  intervals : List Timer
  nextTimer : ℕ
  sourceRef : Option ℕ
  retryRef : Option ℕ
  reconnectDelayRef : ℕ
  shouldReconnectRef : Bool
  lastMessageAtRef : ℕ
  watchdogRef : Option ℕ
  status : StreamStatus
  view : ArenaStreamView
  /-- The arena of the effect whose cleanup is to come. -/
  effect : Option String

def STALE_CONNECTION_MS : ℕ := 60000

def WATCHDOG_INTERVAL_MS : ℕ := 10000

namespace StreamHook

/-- Before the effect has run. -/
def fresh (now : ℕ) : StreamHook where
  now := now
  sources := fun _ => none
  created := 0
  timeouts := []
  intervals := []
  nextTimer := 0
  sourceRef := none
  retryRef := none
  reconnectDelayRef := 1000
  shouldReconnectRef := false
  lastMessageAtRef := 0
  watchdogRef := none
  status := .idle
  view := .initial
  effect := none

/-- `source.close()`. -/
def close (h : StreamHook) (i : ℕ) : StreamHook :=
  { h with sources := Function.update h.sources i ((h.sources i).map fun s => { s with closed := true }) }

/-- `clearConnection()`. -/
def clearConnection (h : StreamHook) : StreamHook :=
  match h.sourceRef with
  | some i => { h.close i with sourceRef := none }
  | none => h

/-- The timers after the one that is known has been cleared, if one is. -/
def clear (known : Option ℕ) (timers : List Timer) : List Timer :=
  match known with
  | some id => timers.filter (·.id ≠ id)
  | none => timers

/-- `clearTimeout(retryRef.current)`, if there is one. -/
def clearRetry (h : StreamHook) : StreamHook := { h with timeouts := clear h.retryRef h.timeouts }

/-- `clearInterval(watchdogRef.current)`, if there is one. -/
def clearWatchdog (h : StreamHook) : StreamHook :=
  { h with intervals := clear h.watchdogRef h.intervals }

/-- `scheduleReconnect()`, of the effect for the arena. -/
def scheduleReconnect (h : StreamHook) (arenaId : String) : StreamHook :=
  if !h.shouldReconnectRef then h
  else
    let h := { h with status := .reconnecting }.clearConnection.clearRetry
    let delay := h.reconnectDelayRef
    { h with
      reconnectDelayRef := min (delay * 2) 30000
      timeouts := h.timeouts ++ [⟨h.nextTimer, arenaId, h.now + delay⟩]
      nextTimer := h.nextTimer + 1
      retryRef := some h.nextTimer }

/-- `connect()`, of the effect for the arena; `throws` says that `new EventSource` does. -/
def connect (h : StreamHook) (arenaId : String) (throws : Bool) : StreamHook :=
  if !h.shouldReconnectRef then h
  else
    let h := { h with status := if h.sourceRef.isSome then .reconnecting else .connecting }
    let h := { h.clearConnection with lastMessageAtRef := h.now }
    if throws then h.scheduleReconnect arenaId
    else { h with
      sources := Function.update h.sources h.created (some ⟨arenaId, false⟩)
      created := h.created + 1
      sourceRef := some h.created }

/-- The cleanup of the effect. -/
def cleanup (h : StreamHook) : StreamHook :=
  let h := { h with shouldReconnectRef := false, effect := none }.clearConnection
  let h := { h.clearRetry with retryRef := none }
  { h.clearWatchdog with watchdogRef := none }

/-- `setInterval` for the watchdog. -/
def watch (h : StreamHook) (arenaId : String) : StreamHook :=
  { h with
    intervals := h.intervals ++ [⟨h.nextTimer, arenaId, h.now + WATCHDOG_INTERVAL_MS⟩]
    nextTimer := h.nextTimer + 1
    watchdogRef := some h.nextTimer }

/-- The effect. -/
def runEffect (h : StreamHook) (arenaId : String) (throws : Bool) : StreamHook :=
  if arenaId = "" then { h with status := .idle, view := .initial }
  else
    let h := { h with shouldReconnectRef := true, effect := some arenaId }
    (h.connect arenaId throws).watch arenaId

/-- `Date.now() - lastMessageAtRef.current > STALE_CONNECTION_MS`. -/
def isStale (h : StreamHook) : Bool := h.lastMessageAtRef + STALE_CONNECTION_MS < h.now

end StreamHook

/-- What can happen to the hook. -/
inductive HookStep where
  /-- The effect runs, for this arena, after the cleanup of the one before. -/
  | effect (arenaId : String) (throws : Bool)
  /-- The hook is unmounted. -/
  | cleanup
  /-- A source has opened. -/
  | opened (i : ℕ)
  /-- A message that `handleEvent` listens to; `none` if `JSON.parse` throws. -/
  | event (i : ℕ) (parsed : Option ArenaStreamEvent)
  /-- A message that has no listener. -/
  | unheard (i : ℕ)
  /-- A source has failed, or dispatches a message of the type `error`. -/
  | failed (i : ℕ)
  /-- A retry is due. -/
  | retry (t : Timer) (throws : Bool)
  /-- The watchdog is due. -/
  | watchdog (t : Timer) (throws : Bool)
  | elapse (ms : ℕ)
  deriving DecidableEq, Repr

namespace StreamHook

/-- The source is open to dispatch. -/
def isOpen (h : StreamHook) (i : ℕ) : Bool := (h.sources i).any fun s => !s.closed

/-- The timer runs again after its time. -/
def rearm (h : StreamHook) (t : Timer) : StreamHook :=
  { h with intervals := h.intervals.map fun u =>
      if u.id = t.id then { u with due := h.now + WATCHDOG_INTERVAL_MS } else u }

/-- A step of the hook. -/
def step (h : StreamHook) : HookStep → Option StreamHook
  | .effect arenaId throws =>
    some ((if h.effect.isSome then h.cleanup else h).runEffect arenaId throws)
  | .cleanup => if h.effect.isSome then some h.cleanup else none
  | .opened i => if h.isOpen i then
      some { h with reconnectDelayRef := 1000, lastMessageAtRef := h.now, status := .connected }
    else none
  | .event i parsed => if h.isOpen i then
      some { h with
        lastMessageAtRef := h.now
        view := parsed.elim h.view h.view.handleEvent }
    else none
  | .unheard i => if h.isOpen i then some h else none
  | .failed i => (h.sources i).bind fun s => if s.closed then none
    else some (h.scheduleReconnect s.arenaId)
  | .retry t throws => if t ∈ h.timeouts ∧ t.due ≤ h.now then
      some ({ h with timeouts := h.timeouts.erase t }.connect t.arenaId throws)
    else none
  | .watchdog t throws => if t ∈ h.intervals ∧ t.due ≤ h.now then
      let h := h.rearm t
      some (if h.shouldReconnectRef && h.isStale then h.connect t.arenaId throws else h)
    else none
  | .elapse ms => some { h with now := h.now + ms }

/-- The steps as a transition system. -/
def Step (h : StreamHook) (a : HookStep) (h' : StreamHook) : Prop := h.step a = some h'

end StreamHook

/-! ## Order -/

namespace StreamHook

variable {h h' : StreamHook} {arenaId : String} {throws : Bool} {a : HookStep}

/-- The sources and the retries belong together: one source at most is open, and one retry at
    most is set; both are of the effect, and known to it. -/
structure Linked (h : StreamHook) : Prop where
  fresh : ∀ i, h.created ≤ i → h.sources i = none
  single : ∀ i s, h.sources i = some s → s.closed = false → h.sourceRef = some i
  current : ∀ i, h.sourceRef = some i →
    ∃ arenaId, h.sources i = some ⟨arenaId, false⟩ ∧ h.effect = some arenaId
  retries : (h.timeouts.map (·.arenaId)).Sublist h.effect.toList
  retried : ∀ t ∈ h.timeouts, h.retryRef = some t.id
  should : h.shouldReconnectRef = h.effect.isSome

/-- The watchdog runs for the effect, and only for it. -/
structure Watched (h : StreamHook) : Prop where
  one : h.intervals.map (·.arenaId) = h.effect.toList
  known : ∀ t ∈ h.intervals, h.watchdogRef = some t.id

/-- An effect has a connection, or is about to make one. -/
def Alive (h : StreamHook) : Prop :=
  h.effect.isSome = true → h.sourceRef.isSome = true ∨ h.timeouts ≠ []

/-- What the order of a hook depends on. -/
def core (h : StreamHook) : (ℕ → Option Source) × ℕ × Option ℕ × Option String × List Timer ×
    Option ℕ × Bool :=
  (h.sources, h.created, h.sourceRef, h.effect, h.timeouts, h.retryRef, h.shouldReconnectRef)

theorem Linked.congr (hl : h.Linked) (hsame : h'.core = h.core) : h'.Linked := by
  simp only [core, Prod.mk.injEq] at hsame
  obtain ⟨hsources, hcreated, href, heffect, htimeouts, hretry, hshould⟩ := hsame
  exact {
    fresh := by rw [hsources, hcreated]; exact hl.fresh
    single := by rw [hsources, href]; exact hl.single
    current := by rw [hsources, href, heffect]; exact hl.current
    retries := by rw [htimeouts, heffect]; exact hl.retries
    retried := by rw [htimeouts, hretry]; exact hl.retried
    should := by rw [hshould, heffect]; exact hl.should }

theorem Watched.congr (hw : h.Watched) (hintervals : h'.intervals = h.intervals)
    (hwatchdog : h'.watchdogRef = h.watchdogRef) (heffect : h'.effect = h.effect) :
    h'.Watched :=
  ⟨by rw [hintervals, heffect, hw.one], by rw [hintervals, hwatchdog]; exact hw.known⟩

/-- No source is open. -/
def AllClosed (sources : ℕ → Option Source) : Prop :=
  ∀ i s, sources i = some s → s.closed = true

/-- The sources are the same ones, of which some may have been closed, and others have been
    made. -/
def Keeps (sources sources' : ℕ → Option Source) : Prop :=
  ∀ i source, sources i = some source → ∃ source', sources' i = some source' ∧
    source'.arenaId = source.arenaId ∧ (source.closed = true → source'.closed = true)

theorem Keeps.refl (sources : ℕ → Option Source) : Keeps sources sources :=
  fun _ source hs => ⟨source, hs, rfl, id⟩

theorem Keeps.trans {sources sources' sources'' : ℕ → Option Source}
    (hk : Keeps sources sources') (hk' : Keeps sources' sources'') : Keeps sources sources'' := by
  intro i source hs
  obtain ⟨source', hs', harena, hclosed⟩ := hk i source hs
  obtain ⟨source'', hs'', harena', hclosed'⟩ := hk' i source' hs'
  exact ⟨source'', hs'', harena'.trans harena, fun h => hclosed' (hclosed h)⟩

/-- What closing the connection leaves. -/
theorem Linked.clearConnection (hl : h.Linked) : ∃ sources,
    h.clearConnection = { h with sources := sources, sourceRef := none } ∧ AllClosed sources ∧
      (∀ i, h.created ≤ i → sources i = none) ∧ Keeps h.sources sources := by
  cases href : h.sourceRef with
  | none =>
    have hsame : h.clearConnection = h := by rw [StreamHook.clearConnection, href]
    refine ⟨h.sources, ?_, fun i s hs => ?_, hl.fresh, .refl _⟩
    · exact hsame.trans (congrArg (fun r => { h with sourceRef := r }) href)
    · cases hclosed : s.closed with
      | true => rfl
      | false => exact absurd (hl.single i s hs hclosed) (by simp [href])
  | some i =>
    have hclose : h.clearConnection = { h.close i with sourceRef := none } := by
      rw [StreamHook.clearConnection, href]
    refine ⟨_, hclose, fun j s hs => ?_, fun j hj => ?_, fun j s hs => ?_⟩
    · dsimp only [close] at hs
      by_cases hji : j = i
      · rw [hji, Function.update_self, Option.map_eq_some_iff] at hs
        obtain ⟨_, -, rfl⟩ := hs
        rfl
      · rw [Function.update_of_ne hji] at hs
        cases hclosed : s.closed with
        | true => rfl
        | false =>
          have heq := hl.single j s hs hclosed
          rw [href] at heq
          exact absurd (Option.some.inj heq).symm hji
    · obtain ⟨_, hi, -⟩ := hl.current i href
      have hji : j ≠ i := by
        rintro rfl
        rw [hl.fresh j hj] at hi
        cases hi
      dsimp only [close]
      rw [Function.update_of_ne hji]
      exact hl.fresh j hj
    · dsimp only [close]
      by_cases hji : j = i
      · subst hji
        exact ⟨{ s with closed := true }, by rw [Function.update_self, hs]; rfl, rfl, fun _ => rfl⟩
      · exact ⟨s, by rw [Function.update_of_ne hji, hs], rfl, id⟩

/-- Where all timers are known, clearing the one that is known clears them all. -/
theorem clear_known {known : Option ℕ} {timers : List Timer}
    (h : ∀ t ∈ timers, known = some t.id) : clear known timers = [] := by
  cases known with
  | none => exact List.eq_nil_iff_forall_not_mem.mpr fun t ht => nomatch h t ht
  | some id =>
    refine List.filter_eq_nil_iff.mpr fun t ht => ?_
    simp [Option.some.inj (h t ht)]

/-- What `scheduleReconnect` does. -/
structure Reconnects (arenaId : String) (h h' : StreamHook) : Prop where
  linked : h'.Linked
  source : h'.sourceRef = none
  retry : h'.timeouts.map (fun t => (t.arenaId, t.due)) =
    [(arenaId, h.now + h.reconnectDelayRef)]
  delay : h'.reconnectDelayRef = min (h.reconnectDelayRef * 2) 30000
  status : h'.status = .reconnecting
  effect : h'.effect = h.effect
  intervals : h'.intervals = h.intervals
  watchdog : h'.watchdogRef = h.watchdogRef
  view : h'.view = h.view
  now : h'.now = h.now
  heard : h'.lastMessageAtRef = h.lastMessageAtRef
  keeps : Keeps h.sources h'.sources

theorem Linked.scheduleReconnect (hl : h.Linked) (heffect : h.effect = some arenaId) :
    Reconnects arenaId h (h.scheduleReconnect arenaId) := by
  have hshould : h.shouldReconnectRef = true := by rw [hl.should, heffect]; rfl
  have hbefore : Linked { h with status := .reconnecting } := hl.congr rfl
  obtain ⟨sources, hclear, hclosed, hnone, hkeeps⟩ := hbefore.clearConnection
  have hcleared : Linked { h with
      status := .reconnecting
      sources := sources
      sourceRef := none } :=
    ⟨hnone, fun i s hs hopen => absurd (hclosed i s hs) (by simp [hopen]),
      (fun _ href => nomatch href), hl.retries, hl.retried, hl.should⟩
  have heq : h.scheduleReconnect arenaId = { h with
      status := .reconnecting
      sources := sources
      sourceRef := none
      reconnectDelayRef := min (h.reconnectDelayRef * 2) 30000
      timeouts := [⟨h.nextTimer, arenaId, h.now + h.reconnectDelayRef⟩]
      nextTimer := h.nextTimer + 1
      retryRef := some h.nextTimer } := by
    rw [StreamHook.scheduleReconnect, if_neg (by simp [hshould])]
    dsimp only
    rw [hclear, clearRetry]
    dsimp only
    rw [clear_known hl.retried]
    rfl
  rw [heq]
  exact {
    linked := {
      fresh := hnone
      single := fun i s hs hopen => absurd (hclosed i s hs) (by simp [hopen])
      current := fun _ href => nomatch href
      retries := by simp [heffect]
      retried := by simp
      should := hl.should }
    source := rfl
    retry := rfl
    delay := rfl
    status := rfl
    effect := rfl
    intervals := rfl
    watchdog := rfl
    view := rfl
    now := rfl
    heard := rfl
    keeps := hkeeps }

/-- What `connect` does. -/
structure Connects (arenaId : String) (throws : Bool) (h h' : StreamHook) : Prop where
  linked : h'.Linked
  source : throws = false → h'.sourceRef = some h.created
  kept : throws = false → h'.timeouts = h.timeouts ∧ h'.reconnectDelayRef = h.reconnectDelayRef
  retry : throws = true → h'.timeouts.map (fun t => (t.arenaId, t.due)) =
    [(arenaId, h.now + h.reconnectDelayRef)]
  delay : throws = true → h'.reconnectDelayRef = min (h.reconnectDelayRef * 2) 30000
  effect : h'.effect = h.effect
  intervals : h'.intervals = h.intervals
  watchdog : h'.watchdogRef = h.watchdogRef
  view : h'.view = h.view
  now : h'.now = h.now
  heard : h'.lastMessageAtRef = h.now
  keeps : Keeps h.sources h'.sources

theorem Linked.connect (hl : h.Linked) (heffect : h.effect = some arenaId) (throws : Bool) :
    Connects arenaId throws h (h.connect arenaId throws) := by
  have hshould : h.shouldReconnectRef = true := by rw [hl.should, heffect]; rfl
  have hbefore : Linked { h with
      status := if h.sourceRef.isSome then .reconnecting else .connecting } := hl.congr rfl
  obtain ⟨sources, hclear, hclosed, hnone, hkeeps⟩ := hbefore.clearConnection
  have heq : h.connect arenaId throws =
      let h₁ : StreamHook := { h with
        status := if h.sourceRef.isSome then .reconnecting else .connecting
        sources := sources
        sourceRef := none
        lastMessageAtRef := h.now }
      if throws then h₁.scheduleReconnect arenaId
      else { h₁ with
        sources := Function.update sources h.created (some ⟨arenaId, false⟩)
        created := h.created + 1
        sourceRef := some h.created } := by
    rw [StreamHook.connect, if_neg (by simp [hshould])]
    dsimp only
    rw [hclear]
  rw [heq]
  cases throws with
  | true =>
    have hr := Linked.scheduleReconnect (h := { h with
        status := if h.sourceRef.isSome then .reconnecting else .connecting
        sources := sources
        sourceRef := none
        lastMessageAtRef := h.now })
      ⟨hnone, fun i s hs hopen => absurd (hclosed i s hs) (by simp [hopen]),
        (fun _ href => nomatch href), hl.retries, hl.retried, hl.should⟩ heffect
    exact {
      linked := hr.linked
      source := fun hthrows => nomatch hthrows
      kept := fun hthrows => nomatch hthrows
      retry := fun _ => hr.retry
      delay := fun _ => hr.delay
      effect := hr.effect
      intervals := hr.intervals
      watchdog := hr.watchdog
      view := hr.view
      now := hr.now
      heard := hr.heard
      keeps := hkeeps.trans hr.keeps }
  | false =>
    exact {
      linked := {
        fresh := fun i hi => by
          have hlt : h.created + 1 ≤ i := hi
          have hne : i ≠ h.created := by omega
          exact (Function.update_of_ne hne _ _).trans (hnone i (Nat.le_of_succ_le hlt))
        single := fun i s hs hopen => by
          by_cases hi : i = h.created
          · exact congrArg some hi.symm
          · replace hs := (Function.update_of_ne hi _ _).symm.trans hs
            exact absurd (hclosed i s hs) (by simp [hopen])
        current := fun i href => by
          obtain rfl := Option.some.inj href
          exact ⟨arenaId, Function.update_self _ _ _, heffect⟩
        retries := hl.retries
        retried := hl.retried
        should := hl.should }
      source := fun _ => rfl
      kept := fun _ => ⟨rfl, rfl⟩
      retry := fun hthrows => nomatch hthrows
      delay := fun hthrows => nomatch hthrows
      effect := rfl
      intervals := rfl
      watchdog := rfl
      view := rfl
      now := rfl
      heard := rfl
      keeps := hkeeps.trans fun i s hs => by
        have hne : i ≠ h.created := by
          rintro rfl
          rw [hnone _ (Nat.le_refl _)] at hs
          cases hs
        exact ⟨s, (Function.update_of_ne hne _ _).trans hs, rfl, id⟩ }

theorem Connects.alive (hc : Connects arenaId throws h h') : h'.Alive := by
  intro _
  cases throws with
  | false => exact .inl (by rw [hc.source rfl]; rfl)
  | true =>
    refine .inr fun hnil => ?_
    have hretry := hc.retry rfl
    rw [hnil] at hretry
    cases hretry

/-- What the cleanup leaves. -/
structure Cleans (h h' : StreamHook) : Prop where
  closed : AllClosed h'.sources
  fresh : ∀ i, h'.created ≤ i → h'.sources i = none
  sourceRef : h'.sourceRef = none
  timeouts : h'.timeouts = []
  intervals : h'.intervals = []
  should : h'.shouldReconnectRef = false
  effect : h'.effect = none
  delay : h'.reconnectDelayRef = h.reconnectDelayRef
  view : h'.view = h.view
  now : h'.now = h.now
  heard : h'.lastMessageAtRef = h.lastMessageAtRef
  keeps : Keeps h.sources h'.sources

theorem clearConnection_over (h : StreamHook) :
    { h with shouldReconnectRef := false, effect := none }.clearConnection =
      { h.clearConnection with shouldReconnectRef := false, effect := none } := by
  rcases h with ⟨_, _, _, _, _, _, _ | i, _, _, _, _, _, _, _, _⟩ <;> rfl

theorem Linked.cleanup (hl : h.Linked) (hw : h.Watched) : Cleans h h.cleanup := by
  have hclear : ∃ sources,
      { h with shouldReconnectRef := false, effect := none }.clearConnection =
        { h with
          shouldReconnectRef := false
          effect := none
          sources := sources
          sourceRef := none } ∧ AllClosed sources ∧ (∀ i, h.created ≤ i → sources i = none) ∧
        Keeps h.sources sources := by
    obtain ⟨sources, heq, hrest⟩ := hl.clearConnection
    refine ⟨sources, ?_, hrest⟩
    rw [clearConnection_over, heq]
  obtain ⟨sources, heq, hclosed, hnone, hkeeps⟩ := hclear
  have htotal : h.cleanup = { h with
      shouldReconnectRef := false
      effect := none
      sources := sources
      sourceRef := none
      timeouts := []
      retryRef := none
      intervals := []
      watchdogRef := none } := by
    rw [StreamHook.cleanup, heq]
    dsimp only [clearRetry, clearWatchdog]
    rw [clear_known hl.retried, clear_known hw.known]
  rw [htotal]
  exact ⟨hclosed, hnone, rfl, rfl, rfl, rfl, rfl, rfl, rfl, rfl, rfl, hkeeps⟩

/-- The order of a hook. -/
structure Orderly (h : StreamHook) : Prop where
  linked : h.Linked
  watched : h.Watched
  alive : h.Alive

theorem Cleans.orderly (hc : Cleans h h') : h'.Orderly where
  linked := {
    fresh := hc.fresh
    single := fun i s hs hopen => absurd (hc.closed i s hs) (by simp [hopen])
    current := fun i href => by rw [hc.sourceRef] at href; cases href
    retries := by rw [hc.timeouts]; exact List.nil_sublist _
    retried := by rw [hc.timeouts]; simp
    should := by rw [hc.should, hc.effect]; rfl }
  watched := ⟨by rw [hc.intervals, hc.effect]; rfl, by rw [hc.intervals]; simp⟩
  alive := fun heffect => by rw [hc.effect] at heffect; cases heffect

theorem fresh_cleans (now : ℕ) : Cleans (fresh now) (fresh now) :=
  ⟨fun _ _ hs => (nomatch hs), fun _ _ => rfl, rfl, rfl, rfl, rfl, rfl, rfl, rfl, rfl, rfl, .refl _⟩

/-! ## What a step does -/

/-- What a step does to a hook in order. -/
inductive Effect (h : StreamHook) : HookStep → StreamHook → Prop
  | vacated {throws : Bool} {h₀ : StreamHook} (hc : Cleans h h₀) :
    Effect h (.effect "" throws) { h₀ with status := .idle, view := .initial }
  | started {arenaId : String} {throws : Bool} {h₀ h₁ : StreamHook} (hne : arenaId ≠ "")
    (hc : Cleans h h₀)
    (hconn : Connects arenaId throws
      { h₀ with shouldReconnectRef := true, effect := some arenaId } h₁) :
    Effect h (.effect arenaId throws) (h₁.watch arenaId)
  | ended {h' : StreamHook} (hc : Cleans h h') : Effect h .cleanup h'
  | opened {i : ℕ} (hopen : h.isOpen i = true) : Effect h (.opened i)
      { h with reconnectDelayRef := 1000, lastMessageAtRef := h.now, status := .connected }
  | event {i : ℕ} {parsed : Option ArenaStreamEvent} (hopen : h.isOpen i = true) :
    Effect h (.event i parsed)
      { h with lastMessageAtRef := h.now, view := parsed.elim h.view h.view.handleEvent }
  | unheard {i : ℕ} (hopen : h.isOpen i = true) : Effect h (.unheard i) h
  | failed {i : ℕ} {arenaId : String} {h' : StreamHook}
    (hopen : h.sources i = some ⟨arenaId, false⟩) (heffect : h.effect = some arenaId)
    (hr : Reconnects arenaId h h') : Effect h (.failed i) h'
  | retried {t : Timer} {throws : Bool} {h' : StreamHook} (ht : h.timeouts = [t])
    (hdue : t.due ≤ h.now) (heffect : h.effect = some t.arenaId)
    (hconn : Connects t.arenaId throws { h with timeouts := [] } h') :
    Effect h (.retry t throws) h'
  | replaced {t : Timer} {throws : Bool} {h' : StreamHook} (ht : h.intervals = [t])
    (hdue : t.due ≤ h.now) (heffect : h.effect = some t.arenaId) (hstale : h.isStale = true)
    (hconn : Connects t.arenaId throws (h.rearm t) h') : Effect h (.watchdog t throws) h'
  | seen {t : Timer} {throws : Bool} (ht : h.intervals = [t]) (hdue : t.due ≤ h.now)
    (heffect : h.effect = some t.arenaId) (hfresh : h.isStale = false) :
    Effect h (.watchdog t throws) (h.rearm t)
  | elapsed {ms : ℕ} : Effect h (.elapse ms) { h with now := h.now + ms }

theorem Orderly.cleans (ho : h.Orderly) (heffect : h.effect = none) : Cleans h h where
  closed i s hs := by
    cases hclosed : s.closed with
    | true => rfl
    | false =>
      obtain ⟨_, -, harena⟩ := ho.linked.current i (ho.linked.single i s hs hclosed)
      rw [heffect] at harena
      cases harena
  fresh := ho.linked.fresh
  sourceRef := by
    cases href : h.sourceRef with
    | none => rfl
    | some i =>
      obtain ⟨_, -, harena⟩ := ho.linked.current i href
      rw [heffect] at harena
      cases harena
  timeouts := by
    have hsub := ho.linked.retries
    rw [heffect, Option.toList_none, List.sublist_nil, List.map_eq_nil_iff] at hsub
    exact hsub
  intervals := by
    have hone := ho.watched.one
    rw [heffect, Option.toList_none, List.map_eq_nil_iff] at hone
    exact hone
  should := by rw [ho.linked.should, heffect]; rfl
  effect := heffect
  delay := rfl
  view := rfl
  now := rfl
  heard := rfl
  keeps := .refl _

/-- A source that is open is the one in use, for the arena in effect. -/
theorem Orderly.source_open (ho : h.Orderly) {i : ℕ} (hopen : h.isOpen i = true) :
    ∃ arenaId, h.sources i = some ⟨arenaId, false⟩ ∧ h.effect = some arenaId ∧
      h.sourceRef = some i := by
  cases hs : h.sources i with
  | none => simp [isOpen, hs] at hopen
  | some s =>
    have href := ho.linked.single i s hs (by simpa [isOpen, hs] using hopen)
    obtain ⟨arenaId, hsource, heffect⟩ := ho.linked.current i href
    exact ⟨arenaId, hs.symm.trans hsource, heffect, href⟩

/-- The only retry. -/
theorem Orderly.timeouts_eq (ho : h.Orderly) {t : Timer} (ht : t ∈ h.timeouts) :
    h.timeouts = [t] ∧ h.effect = some t.arenaId := by
  have hsub := ho.linked.retries
  cases heffect : h.effect with
  | none =>
    rw [(ho.cleans heffect).timeouts] at ht
    cases ht
  | some arenaId =>
    rw [heffect, Option.toList_some] at hsub
    have hlen := hsub.length_le
    rw [List.length_map, List.length_singleton] at hlen
    obtain ⟨u, hu⟩ := List.length_eq_one_iff.mp
      (Nat.le_antisymm hlen (List.length_pos_of_mem ht))
    rw [hu, List.mem_singleton] at ht
    subst ht
    rw [hu, List.map_singleton, List.singleton_sublist, List.mem_singleton] at hsub
    exact ⟨hu, congrArg some hsub.symm⟩

/-- The only watchdog. -/
theorem Orderly.intervals_eq (ho : h.Orderly) {t : Timer} (ht : t ∈ h.intervals) :
    h.intervals = [t] ∧ h.effect = some t.arenaId := by
  have hone := ho.watched.one
  cases heffect : h.effect with
  | none =>
    rw [(ho.cleans heffect).intervals] at ht
    cases ht
  | some arenaId =>
    rw [heffect, Option.toList_some] at hone
    obtain ⟨u, hu, harena⟩ := List.map_eq_singleton_iff.mp hone
    rw [hu, List.mem_singleton] at ht
    subst ht
    exact ⟨hu, congrArg some harena.symm⟩

theorem Orderly.effect_of_step (ho : h.Orderly) (hs : Step h a h') : Effect h a h' := by
  cases a with
  | effect arenaId throws =>
    obtain rfl := (Option.some.inj hs).symm
    have hclean : Cleans h (if h.effect.isSome then h.cleanup else h) := by
      cases heffect : h.effect with
      | none => exact ho.cleans heffect
      | some _ => exact ho.linked.cleanup ho.watched
    generalize (if h.effect.isSome then h.cleanup else h) = h₀ at hclean
    by_cases hempty : arenaId = ""
    · subst hempty
      exact .vacated hclean
    · have hlinked : Linked { h₀ with shouldReconnectRef := true, effect := some arenaId } := {
        fresh := hclean.fresh
        single := fun i s hs hopen => absurd (hclean.closed i s hs) (by simp [hopen])
        current := fun i href => by
          replace href := hclean.sourceRef.symm.trans href
          cases href
        retries := by
          dsimp only
          rw [hclean.timeouts]
          exact List.nil_sublist _
        retried := by
          dsimp only
          rw [hclean.timeouts]
          simp
        should := rfl }
      have heq : h₀.runEffect arenaId throws = ({ h₀ with
          shouldReconnectRef := true
          effect := some arenaId }.connect arenaId throws).watch arenaId := if_neg hempty
      rw [heq]
      exact .started hempty hclean (hlinked.connect rfl throws)
  | cleanup =>
    simp only [Step, step] at hs
    split_ifs at hs with hsome
    obtain rfl := Option.some.inj hs
    exact .ended (ho.linked.cleanup ho.watched)
  | opened i =>
    simp only [Step, step] at hs
    split_ifs at hs with hopen
    obtain rfl := Option.some.inj hs
    exact .opened hopen
  | event i parsed =>
    simp only [Step, step] at hs
    split_ifs at hs with hopen
    obtain rfl := Option.some.inj hs
    exact .event hopen
  | unheard i =>
    simp only [Step, step] at hs
    split_ifs at hs with hopen
    obtain rfl := Option.some.inj hs
    exact .unheard hopen
  | failed i =>
    simp only [Step, step, Option.bind_eq_some_iff] at hs
    obtain ⟨s, hsource, hs⟩ := hs
    split_ifs at hs with hclosed
    obtain rfl := Option.some.inj hs
    have hopen : h.isOpen i = true := by simp [isOpen, hsource, hclosed]
    obtain ⟨arenaId, hsource', heffect, -⟩ := ho.source_open hopen
    obtain rfl : s = ⟨arenaId, false⟩ := Option.some.inj (hsource.symm.trans hsource')
    exact .failed hsource heffect (ho.linked.scheduleReconnect heffect)
  | retry t throws =>
    simp only [Step, step] at hs
    split_ifs at hs with hdue
    obtain rfl := Option.some.inj hs
    obtain ⟨hone, heffect⟩ := ho.timeouts_eq hdue.1
    have hcleared : Linked { h with timeouts := [] } :=
      ⟨ho.linked.fresh, ho.linked.single, ho.linked.current, List.nil_sublist _, by simp,
        ho.linked.should⟩
    rw [hone, List.erase_cons_head]
    exact .retried hone hdue.2 heffect (hcleared.connect heffect throws)
  | watchdog t throws =>
    simp only [Step, step] at hs
    split_ifs at hs with hdue hgo
    · obtain rfl := Option.some.inj hs
      obtain ⟨hone, heffect⟩ := ho.intervals_eq hdue.1
      have hlinked : (h.rearm t).Linked := ho.linked.congr rfl
      rw [Bool.and_eq_true] at hgo
      exact .replaced hone hdue.2 heffect hgo.2 (hlinked.connect heffect throws)
    · obtain rfl := Option.some.inj hs
      obtain ⟨hone, heffect⟩ := ho.intervals_eq hdue.1
      have hshould : (h.rearm t).shouldReconnectRef = true := by
        show h.shouldReconnectRef = true
        rw [ho.linked.should, heffect]
        rfl
      rw [hshould, Bool.true_and, Bool.not_eq_true] at hgo
      exact .seen hone hdue.2 heffect hgo
  | elapse ms =>
    obtain rfl := (Option.some.inj hs).symm
    exact .elapsed

/-! ## Whole runs -/

theorem rearm_intervals {t : Timer} (ht : h.intervals = [t]) :
    (h.rearm t).intervals = [{ t with due := h.now + WATCHDOG_INTERVAL_MS }] := by
  simp [rearm, ht]

/-- A step keeps the order. -/
theorem Orderly.step (ho : h.Orderly) (hs : Step h a h') : h'.Orderly := by
  cases ho.effect_of_step hs with
  | vacated hc =>
    exact ⟨hc.orderly.linked.congr rfl, hc.orderly.watched.congr rfl rfl rfl, hc.orderly.alive⟩
  | started hne hc hconn =>
    have hnone := hconn.intervals.trans hc.intervals
    have heffect := hconn.effect
    refine ⟨hconn.linked.congr rfl, ⟨?_, ?_⟩, hconn.alive⟩
    · simp only [watch, hnone, heffect]
      rfl
    · simp [watch, hnone]
  | ended hc => exact hc.orderly
  | opened _ => exact ⟨ho.linked.congr rfl, ho.watched.congr rfl rfl rfl, ho.alive⟩
  | event _ => exact ⟨ho.linked.congr rfl, ho.watched.congr rfl rfl rfl, ho.alive⟩
  | unheard _ => exact ho
  | failed _ _ hr =>
    refine ⟨hr.linked, ho.watched.congr hr.intervals hr.watchdog hr.effect,
      fun _ => .inr fun hnil => ?_⟩
    have hretry := hr.retry
    rw [hnil] at hretry
    cases hretry
  | retried ht _ _ hconn =>
    exact ⟨hconn.linked, ho.watched.congr hconn.intervals hconn.watchdog hconn.effect,
      hconn.alive⟩
  | replaced ht _ heffect _ hconn =>
    have hintervals := hconn.intervals.trans (rearm_intervals ht)
    have hknown := ho.watched.known
    refine ⟨hconn.linked, ⟨?_, ?_⟩, hconn.alive⟩
    · rw [hintervals, hconn.effect]
      exact congrArg Option.toList heffect.symm
    · rw [hintervals, hconn.watchdog]
      simpa [ht, rearm] using hknown
  | seen ht _ heffect _ =>
    have hintervals := rearm_intervals ht
    have hknown := ho.watched.known
    refine ⟨ho.linked.congr rfl, ⟨?_, ?_⟩, ho.alive⟩
    · rw [hintervals]
      exact congrArg Option.toList heffect.symm
    · rw [hintervals]
      simpa [ht, rearm] using hknown
  | elapsed => exact ⟨ho.linked.congr rfl, ho.watched.congr rfl rfl rfl, ho.alive⟩

variable {tr : List (StreamHook × HookStep)} {start : ℕ}

theorem orderly_of_run (hrun : Run Step (fresh start) tr h) : h.Orderly :=
  hrun.invariant (I := Orderly) (fun _ _ _ ho hs => ho.step hs) (fresh_cleans start).orderly

/-- What the effects leave when there is none in place. -/
theorem Orderly.ended (ho : h.Orderly) (heffect : h.effect = none) :
    (∀ i, h.isOpen i = false) ∧ h.timeouts = [] ∧ h.intervals = [] := by
  have hc := ho.cleans heffect
  refine ⟨fun i => ?_, hc.timeouts, hc.intervals⟩
  cases hs : h.sources i with
  | none => simp [isOpen, hs]
  | some s => simp [isOpen, hs, hc.closed i s hs]

/-- An effect that is in place has one watchdog, and either a connection for its arena, the only
    one that is open, or one retry; where none is in place, no connection is open and no timer is
    set. -/
structure Disciplined (h : StreamHook) : Prop where
  single : ∀ i j, h.isOpen i = true → h.isOpen j = true → i = j
  current : ∀ i, h.isOpen i = true → h.effect = (h.sources i).map (·.arenaId)
  served : ∀ arenaId, h.effect = some arenaId → h.intervals.map (·.arenaId) = [arenaId] ∧
    ((∃ i, h.isOpen i = true) ∨ h.timeouts.map (·.arenaId) = [arenaId])
  ended : h.effect = none → (∀ i, h.isOpen i = false) ∧ h.timeouts = [] ∧ h.intervals = []

theorem Orderly.disciplined (ho : h.Orderly) : h.Disciplined where
  single i j hi hj := by
    obtain ⟨_, -, -, hri⟩ := ho.source_open hi
    obtain ⟨_, -, -, hrj⟩ := ho.source_open hj
    exact Option.some.inj (hri.symm.trans hrj)
  current i hi := by
    obtain ⟨arenaId, hs, heffect, -⟩ := ho.source_open hi
    rw [hs, heffect]
    rfl
  served arenaId heffect := by
    refine ⟨by rw [ho.watched.one, heffect]; rfl, ?_⟩
    rcases ho.alive (by rw [heffect]; rfl) with href | hne
    · obtain ⟨i, hi⟩ := Option.isSome_iff_exists.mp href
      obtain ⟨_, hs, -⟩ := ho.linked.current i hi
      exact .inl ⟨i, by simp [isOpen, hs]⟩
    · obtain ⟨t, ts, hcons⟩ := List.exists_cons_of_ne_nil hne
      obtain ⟨hone, ht⟩ := ho.timeouts_eq (t := t) (by rw [hcons]; exact List.mem_cons_self)
      rw [heffect] at ht
      exact .inr (by rw [hone, Option.some.inj ht]; rfl)
  ended := ho.ended

/-! ## Executing steps -/

/-- A step that can be taken. -/
def perform (a : HookStep) (h : StreamHook) : Option (HookStep × StreamHook) :=
  (h.step a).map fun h' => (a, h')

theorem perform_step (b : HookStep) (h : StreamHook) (a : HookStep) (h' : StreamHook)
    (hp : perform b h = some (a, h')) : Step h a h' := by
  obtain ⟨u, hu, heq⟩ := Option.map_eq_some_iff.mp hp
  cases heq
  exact hu

/-- A property decided on executed steps holds of some run. -/
theorem exists_hookRun (steps : List HookStep)
    {P : List (StreamHook × HookStep) → StreamHook → Prop}
    (h : ∃ r ∈ replay perform steps [] (fresh 0), P r.1 r.2) :
    ∃ tr t, Run Step (fresh 0) tr t ∧ P tr t :=
  exists_run_of_replay perform_step h

/-- A source remains, and remains closed. -/
theorem Effect.keeps (he : Effect h a h') : Keeps h.sources h'.sources := by
  cases he with
  | vacated hc => exact hc.keeps
  | started _ hc hconn => exact hc.keeps.trans hconn.keeps
  | ended hc => exact hc.keeps
  | failed _ _ hr => exact hr.keeps
  | retried _ _ _ hconn => exact hconn.keeps
  | replaced _ _ _ _ hconn => exact hconn.keeps
  | _ => exact .refl _

/-- In every run: the hook has one connection at most, of the arena in effect; it is never left
    without a connection and a retry; and nothing is left of an effect that is over. -/
theorem connection_of_run (hrun : Run Step (fresh start) tr h) : h.Disciplined :=
  (orderly_of_run hrun).disciplined

/-- A connection fails, and is made again. -/
theorem connection_of_run_again : ∃ tr h, Run Step (fresh 0) tr h ∧ h.isOpen 0 = false ∧
    h.isOpen 1 = true ∧ h.Disciplined := by
  obtain ⟨tr, h, hrun, hclosed, hopen⟩ : ∃ tr h, Run Step (fresh 0) tr h ∧
      h.isOpen 0 = false ∧ h.isOpen 1 = true :=
    exists_hookRun [.effect "arena" false, .opened 0, .failed 0, .elapse 1000,
      .retry ⟨1, "arena", 1000⟩ false] (by decide)
  exact ⟨tr, h, hrun, hclosed, hopen, connection_of_run hrun⟩

/-! ## Retries -/

/-- The step schedules a retry. -/
def fails (h : StreamHook) : HookStep → Bool
  | .effect arenaId throws => arenaId ≠ "" && throws
  | .failed _ => true
  | .retry _ throws => throws
  | .watchdog _ throws => h.isStale && throws
  | _ => false

/-- The failures since a connection was opened. -/
def misses : List (StreamHook × HookStep) → ℕ
  | [] => 0
  | (h, a) :: tr =>
    match a with
    | .opened _ => 0
    | _ => if h.fails a then misses tr + 1 else misses tr

/-- The delay after `k` failures. -/
def backoff (k : ℕ) : ℕ := min (1000 * 2 ^ k) 30000

theorem backoff_succ (k : ℕ) : backoff (k + 1) = min (backoff k * 2) 30000 := by
  unfold backoff
  rw [pow_succ]
  omega

/-- A step that is not the opening of a connection doubles the delay if it fails. -/
theorem Effect.delay (he : Effect h a h') (hopened : ∀ i, a ≠ .opened i) :
    h'.reconnectDelayRef =
      if h.fails a then min (h.reconnectDelayRef * 2) 30000 else h.reconnectDelayRef := by
  have hconnects : ∀ {arenaId throws} {h₁ h₂ : StreamHook}, Connects arenaId throws h₁ h₂ →
      h₂.reconnectDelayRef =
        if throws then min (h₁.reconnectDelayRef * 2) 30000 else h₁.reconnectDelayRef := by
    intro arenaId throws h₁ h₂ hc
    cases throws with
    | true => exact hc.delay rfl
    | false => exact (hc.kept rfl).2
  cases he with
  | vacated hc => simpa [fails] using hc.delay
  | started hne hc hconn =>
    have hdelay := hconnects hconn
    dsimp only at hdelay
    rw [hc.delay] at hdelay
    simpa [fails, hne, watch] using hdelay
  | ended hc => simpa [fails] using hc.delay
  | opened _ => exact absurd rfl (hopened _)
  | failed _ _ hr => simpa [fails] using hr.delay
  | retried _ _ _ hconn =>
    have hdelay := hconnects hconn
    exact hdelay
  | @replaced t throws _ _ _ _ hstale hconn =>
    have hfails : h.fails (.watchdog t throws) = throws := by simp [fails, hstale]
    have hdelay := hconnects hconn
    rw [hfails]
    exact hdelay
  | seen _ _ _ hfresh => simp [fails, hfresh, rearm]
  | _ => rfl

theorem delay_of_run (hrun : Run Step (fresh start) tr h) :
    h.reconnectDelayRef = backoff (misses tr) := by
  refine hrun.history (I := fun tr h => h.reconnectDelayRef = backoff (misses tr)) rfl ?_
  intro tr h a h' hrun hdelay hs
  have he := (orderly_of_run hrun).effect_of_step hs
  by_cases hopened : ∃ i, a = .opened i
  · obtain ⟨i, rfl⟩ := hopened
    cases he
    rfl
  · have hne : ∀ i, a ≠ .opened i := fun i heq => hopened ⟨i, heq⟩
    have hmisses : misses ((h, a) :: tr) = if h.fails a then misses tr + 1 else misses tr := by
      cases a <;> first | rfl | exact absurd rfl (hne _)
    rw [he.delay hne, hmisses, hdelay]
    split_ifs
    · exact (backoff_succ _).symm
    · rfl

/-- The retry has been set by a failure, and nothing has failed since; it is due when the delay
    for the failures before that one is over. -/
def SetByFailure (tr : List (StreamHook × HookStep)) (t : Timer) : Prop :=
  ∃ newer v a older, tr = newer ++ (v, a) :: older ∧ v.fails a = true ∧
    t.due = v.now + backoff (misses older) ∧ ∀ e ∈ newer, e.1.fails e.2 = false

theorem SetByFailure.cons {t : Timer} (hset : SetByFailure tr t) (hquiet : h.fails a = false) :
    SetByFailure ((h, a) :: tr) t := by
  obtain ⟨newer, v, b, older, rfl, hfails, hdue, hnewer⟩ := hset
  refine ⟨(h, a) :: newer, v, b, older, rfl, hfails, hdue, fun e he => ?_⟩
  rcases List.mem_cons.mp he with rfl | he
  · exact hquiet
  · exact hnewer e he

/-- In every run, the retry that is set is that of the last failure. -/
theorem retry_of_run (hrun : Run Step (fresh start) tr h) :
    ∀ t ∈ h.timeouts, h.effect = some t.arenaId ∧ SetByFailure tr t := by
  refine hrun.history
    (I := fun tr h => ∀ t ∈ h.timeouts, h.effect = some t.arenaId ∧ SetByFailure tr t)
    (by simp [fresh]) ?_
  intro tr h a h' hrun ih hs t ht
  have ho := orderly_of_run hrun
  have ho' := ho.step hs
  refine ⟨(ho'.timeouts_eq ht).2, ?_⟩
  have hdelay := delay_of_run hrun
  have hnow : ∀ {arenaId} {h₁ : StreamHook} {d : ℕ}, h.fails a = true → d = h.reconnectDelayRef →
      h₁.timeouts.map (fun t => (t.arenaId, t.due)) = [(arenaId, h.now + d)] →
        ∀ t ∈ h₁.timeouts, SetByFailure ((h, a) :: tr) t := by
    intro arenaId h₁ d hfails hd hretry t ht
    have hmem := List.mem_map_of_mem (f := fun t : Timer => (t.arenaId, t.due)) ht
    rw [hretry, List.mem_singleton] at hmem
    exact ⟨[], h, a, tr, rfl, hfails, by rw [← hdelay, ← hd]; exact congrArg Prod.snd hmem, by simp⟩
  cases ho.effect_of_step hs with
  | vacated hc => simp [hc.timeouts] at ht
  | @started arenaId throws h₀ h₁ hne hc hconn =>
    cases throws with
    | true =>
      have hretry := hconn.retry rfl
      rw [hc.now] at hretry
      exact hnow (by simp [fails, hne]) hc.delay hretry t ht
    | false =>
      have hkept := (hconn.kept rfl).1.trans hc.timeouts
      simp [watch, hkept] at ht
  | ended hc => simp [hc.timeouts] at ht
  | opened _ => exact (ih t ht).2.cons rfl
  | event _ => exact (ih t ht).2.cons rfl
  | unheard _ => exact (ih t ht).2.cons rfl
  | failed _ _ hr => exact hnow rfl rfl hr.retry t ht
  | @retried u throws _ hone hdue heffect hconn =>
    cases throws with
    | true => exact hnow rfl rfl (hconn.retry rfl) t ht
    | false =>
      rw [(hconn.kept rfl).1] at ht
      cases ht
  | @replaced u throws _ hone hdue heffect hstale hconn =>
    cases throws with
    | true => exact hnow (by simp [fails, hstale]) rfl (hconn.retry rfl) t ht
    | false =>
      rw [(hconn.kept rfl).1] at ht
      exact (ih t ht).2.cons (by simp [fails])
  | seen _ _ _ hfresh => exact (ih t ht).2.cons (by simp [fails, hfresh])
  | elapsed => exact (ih t ht).2.cons rfl

/-- The second failure in a row is retried after two seconds. -/
theorem retry_of_run_second : ∃ tr h, Run Step (fresh 0) tr h ∧
    h.timeouts = [⟨2, "arena", 3000⟩] ∧
      ∀ t ∈ h.timeouts, h.effect = some t.arenaId ∧ SetByFailure tr t := by
  obtain ⟨tr, h, hrun, htimeouts⟩ : ∃ tr h, Run Step (fresh 0) tr h ∧
      h.timeouts = [⟨2, "arena", 3000⟩] :=
    exists_hookRun [.effect "arena" false, .opened 0, .failed 0, .elapse 1000,
      .retry ⟨1, "arena", 1000⟩ true] (by decide)
  exact ⟨tr, h, hrun, htimeouts, retry_of_run hrun⟩

/-! ## Silence -/

/-- Something is heard of the stream, or a new connection is tried. -/
def isSign (h : StreamHook) : HookStep → Bool
  | .effect arenaId _ => arenaId ≠ ""
  | .opened _ => true
  | .event .. => true
  | .retry .. => true
  | .watchdog .. => h.isStale
  | _ => false

/-- Time does not pass by a watchdog that is due. -/
def Prompt (h : StreamHook) : HookStep → Prop
  | .elapse ms => ∀ t ∈ h.intervals, h.now + ms ≤ t.due
  | _ => True

instance (h : StreamHook) : (a : HookStep) → Decidable (h.Prompt a)
  | .elapse ms => inferInstanceAs (Decidable (∀ t ∈ h.intervals, h.now + ms ≤ t.due))
  | .effect .. | .cleanup | .opened _ | .event .. | .unheard _ | .failed _ | .retry ..
  | .watchdog .. => .isTrue trivial

/-- When the hook has last heard something, and when the watchdog will see it. -/
structure Heard (tr : List (StreamHook × HookStep)) (h : StreamHook) : Prop where
  past : h.lastMessageAtRef ≤ h.now
  due : ∀ t ∈ h.intervals, h.now ≤ t.due ∧ t.due ≤ h.lastMessageAtRef + 70000
  sign : h.effect.isSome = true →
    ∃ e ∈ tr, e.1.isSign e.2 = true ∧ e.1.now = h.lastMessageAtRef

theorem Heard.keep (hh : Heard tr h) (hnow : h'.now = h.now)
    (hheard : h'.lastMessageAtRef = h.lastMessageAtRef) (hintervals : h'.intervals = h.intervals)
    (heffect : h'.effect = h.effect) : Heard ((h, a) :: tr) h' where
  past := by rw [hheard, hnow]; exact hh.past
  due := by rw [hintervals, hnow, hheard]; exact hh.due
  sign := by
    rw [heffect, hheard]
    intro hsome
    obtain ⟨e, he, hsign⟩ := hh.sign hsome
    exact ⟨e, List.mem_cons_of_mem _ he, hsign⟩

/-- A sign is heard now. -/
theorem Heard.again (hsign : h.isSign a = true) (hnow : h'.now = h.now)
    (hheard : h'.lastMessageAtRef = h.now)
    (hdue : ∀ t ∈ h'.intervals, h.now ≤ t.due ∧ t.due ≤ h.now + 70000) :
    Heard ((h, a) :: tr) h' where
  past := Nat.le_of_eq (hheard.trans hnow.symm)
  due := by rw [hnow, hheard]; exact hdue
  sign := fun _ => ⟨(h, a), List.mem_cons_self, hsign, hheard.symm⟩

theorem Heard.step (hh : Heard tr h) (ho : h.Orderly) (hs : Step h a h') (hp : h.Prompt a) :
    Heard ((h, a) :: tr) h' := by
  have hlater : ∀ t ∈ h.intervals, h.now ≤ t.due ∧ t.due ≤ h.now + 70000 := fun t ht =>
    ⟨(hh.due t ht).1, Nat.le_trans (hh.due t ht).2 (Nat.add_le_add_right hh.past _)⟩
  have hrearmed : ∀ {t : Timer}, h.intervals = [t] → ∀ u ∈ (h.rearm t).intervals,
      u.due = h.now + 10000 := by
    intro t ht u hu
    rw [rearm_intervals ht, List.mem_singleton] at hu
    rw [hu]
    rfl
  have hover : ∀ {h₀ h₁ : StreamHook}, Cleans h h₀ → h₁.now = h₀.now →
      h₁.lastMessageAtRef = h₀.lastMessageAtRef → h₁.intervals = h₀.intervals →
        h₁.effect = h₀.effect → Heard ((h, a) :: tr) h₁ := by
    intro h₀ h₁ hc hnow hheard hintervals heffect
    refine ⟨?_, by simp [hintervals, hc.intervals], fun hsome => ?_⟩
    · rw [hheard, hnow, hc.heard, hc.now]
      exact hh.past
    · rw [heffect, hc.effect] at hsome
      cases hsome
  cases ho.effect_of_step hs with
  | vacated hc =>
    exact hover hc rfl rfl rfl rfl
  | started hne hc hconn =>
    have hnow := hconn.now.trans hc.now
    have hheard := hconn.heard.trans hc.now
    have hintervals := hconn.intervals.trans hc.intervals
    refine .again (by simp [isSign, hne]) hnow hheard fun t ht => ?_
    simp only [watch, hintervals, List.nil_append, List.mem_singleton] at ht
    have hdue : t.due = h.now + 10000 := by rw [ht, ← hnow]; rfl
    omega
  | ended hc => exact hover hc rfl rfl rfl rfl
  | opened _ => exact .again rfl rfl rfl hlater
  | event _ => exact .again rfl rfl rfl hlater
  | unheard _ => exact hh.keep rfl rfl rfl rfl
  | failed _ _ hr => exact hh.keep hr.now hr.heard hr.intervals hr.effect
  | retried _ _ _ hconn =>
    exact .again rfl hconn.now hconn.heard (by rw [hconn.intervals]; exact hlater)
  | replaced hone _ _ hstale hconn =>
    refine .again hstale hconn.now hconn.heard fun u hu => ?_
    rw [hconn.intervals] at hu
    have hdue := hrearmed hone u hu
    omega
  | seen hone _ _ hfresh =>
    refine ⟨hh.past, fun u hu => ?_, fun hsome => ?_⟩
    · have hdue := hrearmed hone u hu
      have hrecent := of_decide_eq_false hfresh
      dsimp only [STALE_CONNECTION_MS] at hrecent
      show h.now ≤ u.due ∧ u.due ≤ h.lastMessageAtRef + 70000
      omega
    · obtain ⟨e, he, hsign⟩ := hh.sign hsome
      exact ⟨e, List.mem_cons_of_mem _ he, hsign⟩
  | @elapsed ms =>
    refine ⟨Nat.le_trans hh.past (Nat.le_add_right _ _), fun t ht => ⟨hp t ht, (hh.due t ht).2⟩,
      fun hsome => ?_⟩
    obtain ⟨e, he, hsign⟩ := hh.sign hsome
    exact ⟨e, List.mem_cons_of_mem _ he, hsign⟩

theorem heard_of_prompt (hrun : Run Step (fresh start) tr h)
    (hprompt : ∀ e ∈ tr, e.1.Prompt e.2) : Heard tr h := by
  induction hrun with
  | nil => exact ⟨Nat.zero_le _, by simp [fresh], fun hsome => nomatch hsome⟩
  | snoc hrun hs ih =>
    exact (ih fun e he => hprompt e (List.mem_cons_of_mem _ he)).step (orderly_of_run hrun) hs
      (hprompt _ List.mem_cons_self)

/-- While the watchdog runs on time, something is heard of the stream in any seventy seconds,
    or a new connection is tried; messages without a listener do not count. -/
theorem heard_of_run (hrun : Run Step (fresh start) tr h) (hprompt : ∀ e ∈ tr, e.1.Prompt e.2)
    (heffect : h.effect.isSome = true) :
    ∃ e ∈ tr, e.1.isSign e.2 = true ∧ h.now ≤ e.1.now + 70000 := by
  have ho := orderly_of_run hrun
  have hh := heard_of_prompt hrun hprompt
  obtain ⟨e, he, hsign, hat⟩ := hh.sign heffect
  obtain ⟨t, ht⟩ : ∃ t, t ∈ h.intervals := by
    obtain ⟨arenaId, harena⟩ := Option.isSome_iff_exists.mp heffect
    have hone := ho.watched.one
    rw [harena, Option.toList_some] at hone
    obtain ⟨t, ht, -⟩ := List.map_eq_singleton_iff.mp hone
    exact ⟨t, by rw [ht]; exact List.mem_singleton.mpr rfl⟩
  have hdue := hh.due t ht
  exact ⟨e, he, hsign, by omega⟩

/-- A connection that only brings heartbeats is replaced after seventy seconds. -/
theorem heard_of_run_heartbeats : ∃ tr h, Run Step (fresh 0) tr h ∧ h.isOpen 0 = false ∧
    h.isOpen 1 = true ∧ h.now = 80000 ∧ ∃ e ∈ tr, e.1.isSign e.2 = true ∧
      h.now ≤ e.1.now + 70000 := by
  have hsteps : ∃ tr h, Run Step (fresh 0) tr h ∧ h.isOpen 0 = false ∧ h.isOpen 1 = true ∧
      h.now = 80000 ∧ h.effect.isSome = true ∧ ∀ e ∈ tr, e.1.Prompt e.2 :=
    exists_hookRun ([.effect "arena" false, .opened 0] ++
      (List.range 7).flatMap (fun k => [.elapse 10000, .unheard 0,
        .watchdog ⟨0, "arena", 10000 * (k + 1)⟩ false]) ++ [.elapse 10000]) (by decide)
  obtain ⟨tr, h, hrun, hclosed, hopen, hnow, heffect, hprompt⟩ := hsteps
  exact ⟨tr, h, hrun, hclosed, hopen, hnow, heard_of_run hrun hprompt heffect⟩

/-! ## What is shown -/

/-- The events handled since there was no arena, the first one first. -/
def handled : List (StreamHook × HookStep) → List ArenaStreamEvent
  | [] => []
  | (_, a) :: tr =>
    match a with
    | .effect arenaId _ => if arenaId = "" then [] else handled tr
    | .event _ (some e) => handled tr ++ [e]
    | _ => handled tr

/-- The arena in effect when a snapshot was last handled. -/
def snapshotFrom : List (StreamHook × HookStep) → Option String
  | [] => none
  | (h, a) :: tr =>
    match a with
    | .effect arenaId _ => if arenaId = "" then none else snapshotFrom tr
    | .event _ (some ⟨_, .snapshot _, _, _⟩) => h.effect
    | _ => snapshotFrom tr

/-- The snapshot that an event brings. -/
def broughtBy : HookStep → Option (ℕ × ArenaStreamSnapshot)
  | .event i (some ⟨_, .snapshot s, _, _⟩) => some (i, s)
  | _ => none

/-- A stream tells of its own arena. -/
def Sincere (h : StreamHook) (a : HookStep) : Prop :=
  ∀ b ∈ broughtBy a, (h.sources b.1).map (·.arenaId) = some b.2.arenaId

instance (h : StreamHook) (a : HookStep) : Decidable (h.Sincere a) :=
  inferInstanceAs (Decidable (∀ _ ∈ _, _))

/-- What is shown after a step. -/
def viewAfter (h : StreamHook) : HookStep → ArenaStreamView
  | .effect arenaId _ => if arenaId = "" then .initial else h.view
  | .event _ (some e) => h.view.handleEvent e
  | _ => h.view

theorem Effect.view (he : Effect h a h') : h'.view = h.viewAfter a := by
  cases he with
  | vacated hc => rfl
  | started hne hc hconn => exact (hconn.view.trans hc.view).trans (if_neg hne).symm
  | ended hc => exact hc.view
  | @event i parsed _ => cases parsed <;> rfl
  | failed _ _ hr => exact hr.view
  | retried _ _ _ hconn => exact hconn.view
  | replaced _ _ _ _ hconn => exact hconn.view
  | _ => rfl

theorem view_of_run (hrun : Run Step (fresh start) tr h) :
    h.view = ArenaStreamView.initial.receive (handled tr) := by
  refine hrun.history
    (I := fun tr h => h.view = ArenaStreamView.initial.receive (handled tr)) rfl ?_
  intro tr h a h' hrun hview hs
  rw [((orderly_of_run hrun).effect_of_step hs).view]
  cases a with
  | effect arenaId throws =>
    by_cases hempty : arenaId = ""
    · simp only [viewAfter, if_pos hempty, handled]
      rfl
    · simp only [viewAfter, if_neg hempty, handled]
      exact hview
  | event i parsed =>
    cases parsed with
    | none => exact hview
    | some e =>
      simp only [viewAfter, handled, hview, ArenaStreamView.receive, List.foldl_append]
      rfl
  | _ => exact hview

/-- An event other than a snapshot leaves the snapshot that of its arena. -/
theorem handleEvent_arena (view : ArenaStreamView) (e : ArenaStreamEvent) :
    (view.handleEvent e).snapshot.map (·.arenaId) =
      match e.payload with
      | .snapshot s => some s.arenaId
      | _ => view.snapshot.map (·.arenaId) := by
  unfold ArenaStreamView.handleEvent
  cases e.payload with
  | snapshot s => rfl
  | _ => cases view.snapshot <;> rfl

/-- What is shown in a run: the events handled since there was no arena, of whichever arenas. A
    snapshot that is shown is that of the arena that was in effect when it was handled. -/
theorem shown_of_run (hrun : Run Step (fresh start) tr h)
    (hsincere : ∀ e ∈ tr, e.1.Sincere e.2) :
    h.view = ArenaStreamView.initial.receive (handled tr) ∧
      h.view.snapshot.map (·.arenaId) = snapshotFrom tr := by
  refine ⟨view_of_run hrun, ?_⟩
  induction hrun with
  | nil => rfl
  | @snoc tr h a h' hrun hs ih =>
    have ho := orderly_of_run hrun
    have he := ho.effect_of_step hs
    have hbefore := ih fun e he => hsincere e (List.mem_cons_of_mem _ he)
    have hnow := hsincere _ List.mem_cons_self
    rw [he.view]
    cases a with
    | effect arenaId throws =>
      by_cases hempty : arenaId = ""
      · simp only [viewAfter, if_pos hempty, snapshotFrom]
        rfl
      · simp only [viewAfter, if_neg hempty, snapshotFrom]
        exact hbefore
    | event i parsed =>
      cases parsed with
      | none => exact hbefore
      | some e =>
        obtain ⟨arenaId, payload, sequence, createdAt⟩ := e
        simp only [viewAfter, handleEvent_arena]
        cases payload with
        | snapshot s =>
          cases he with
          | event hopen =>
            obtain ⟨arenaId, hsource, heffect, -⟩ := ho.source_open hopen
            have harena : (h.sources i).map (·.arenaId) = some s.arenaId := hnow (i, s) rfl
            rw [hsource] at harena
            exact harena.symm.trans heffect.symm
        | _ => exact hbefore
    | _ => exact hbefore

/-- An arena is left for another one, whose stream tells of an elimination. -/
theorem shown_of_run_switched : ∃ tr h, Run Step (fresh 0) tr h ∧ h.effect = some "b" ∧
    h.view = ArenaStreamView.initial.receive (handled tr) ∧ snapshotFrom tr = some "a" ∧
      h.view.snapshot.map (·.arenaId) = snapshotFrom tr := by
  obtain ⟨tr, h, hrun, heffect, hfrom, hsincere⟩ : ∃ tr h, Run Step (fresh 0) tr h ∧
      h.effect = some "b" ∧ snapshotFrom tr = some "a" ∧ ∀ e ∈ tr, e.1.Sincere e.2 :=
    exists_hookRun [.effect "a" false, .opened 0,
      .event 0 (some ⟨"a", .snapshot ⟨"a", 1, 3, 3, "active", [], none⟩, 1, ""⟩),
      .effect "b" false, .opened 1,
      .event 1 (some ⟨"b", .playerEliminated ⟨"e", "user", 1, none, ""⟩, 2, ""⟩)] (by decide)
  obtain ⟨hview, harena⟩ := shown_of_run hrun hsincere
  exact ⟨tr, h, hrun, heffect, hview, hfrom, harena⟩

end StreamHook

end InverseArena.Frontend
