import InverseArena.Backend.Stream.Serving
import InverseArena.Composition.EventWire
import InverseArena.Frontend.StreamConnection

/-!
# Spectators

The pollers of all arenas, with all their clients, and the hook of one client: its connections are
among the subscribers. A connection brings the events that its subscriber has been sent one by
one, at any pace.

Results:
* `faithful_of_run`: on each connection, the hook handles what has been sent, in order, once, and
  up to the first error; the numbers ascend.
-/

namespace InverseArena.Composition

open Transition Backend.Stream Frontend

/-! ## The system -/

/-- The streams of the arenas, the hook, the subscriber that each source is, and how many of the
    events it has been sent have arrived. -/
structure Spectating where
  hook : StreamHook
  streams : String → ArenaStream
  subscriber : ℕ → Option ℕ
  arrived : ℕ → ℕ

/-- What can happen. -/
inductive SpectatorStep where
  /-- A step of the stream of an arena. -/
  | serve (arenaId : String) (step : StreamStep)
  /-- The request of a source is served: it becomes a subscriber. -/
  | accept (i c : ℕ)
  /-- The next event of a source arrives; it was sent at this time. -/
  | arrive (i : ℕ) (createdAt : String)
  /-- A step of the hook that is no message. -/
  | hook (a : HookStep)

/-- The hook's step when an event arrives at a source for the arena. -/
def hookStep (i : ℕ) (arenaId createdAt : String) (e : StreamEvent) : HookStep :=
  if isError e then .failed i
  else match shown (⟨arenaId, 0, createdAt⟩, e) with
    | some event => .event i (some event)
    | none => .unheard i

/-- The step is no message. -/
def isOwn : HookStep → Bool
  | .event .. => false
  | .unheard _ => false
  | _ => true

namespace Spectating

/-- Nobody has connected. -/
def initial : Spectating := ⟨.fresh 0, fun _ => .empty, fun _ => none, fun _ => 0⟩

/-- The step of the hook when the next event of a source arrives. -/
def arrival (s : Spectating) (i : ℕ) (createdAt : String) : Option HookStep :=
  (s.hook.sources i).bind fun source => (s.subscriber i).bind fun c =>
    (((s.streams source.arenaId).received c)[s.arrived i]?).map (hookStep i source.arenaId createdAt)

/-- The step of the hook in a step of the system, if there is one. -/
def stepOfHook (s : Spectating) : SpectatorStep → Option HookStep
  | .serve .. => none
  | .accept .. => none
  | .arrive i createdAt => s.arrival i createdAt
  | .hook a => if isOwn a then some a else none

/-- A step of the system. -/
inductive Step : Spectating → SpectatorStep → Spectating → Prop
  | serve {s : Spectating} {arenaId : String} {a : StreamStep} {t : ArenaStream}
    (hs : ArenaStream.Step (s.streams arenaId) a t) :
    Step s (.serve arenaId a) { s with streams := Function.update s.streams arenaId t }
  | accept {s : Spectating} {i c : ℕ} {source : Source} {t : ArenaStream}
    (hsource : s.hook.sources i = some source) (hnew : s.subscriber i = none)
    (hs : ArenaStream.Step (s.streams source.arenaId) (.subscribe c) t) :
    Step s (.accept i c) { s with
      streams := Function.update s.streams source.arenaId t
      subscriber := Function.update s.subscriber i (some c) }
  | arrive {s : Spectating} {i : ℕ} {createdAt : String} {a : HookStep} {h : StreamHook}
    (ha : s.arrival i createdAt = some a) (hs : StreamHook.Step s.hook a h) :
    Step s (.arrive i createdAt) { s with
      hook := h
      arrived := Function.update s.arrived i (s.arrived i + 1) }
  | hook {s : Spectating} {a : HookStep} {h : StreamHook} (hown : isOwn a = true)
    (hs : StreamHook.Step s.hook a h) : Step s (.hook a) { s with hook := h }

/-- The event that a step of the hook brings to the handler of a source. -/
def eventFor (i : ℕ) : HookStep → Option ArenaStreamEvent
  | .event j (some event) => if j = i then some event else none
  | _ => none

/-- The same of a step of the system. -/
def eventOf (i : ℕ) (e : Spectating × SpectatorStep) : Option ArenaStreamEvent :=
  (e.1.stepOfHook e.2).bind (eventFor i)

/-- The events handled of a source, the first one first. -/
def handledFrom (i : ℕ) (tr : List (Spectating × SpectatorStep)) : List ArenaStreamEvent :=
  tr.reverse.filterMap (eventOf i)

end Spectating

/-- The number and the payload of an event. -/
def content (e : ArenaStreamEvent) : ℕ × ArenaStreamPayload := (e.sequence, e.payload)

/-- The same of an event that is sent, if the hook listens to it. -/
def contentOf (e : StreamEvent) : Option (ℕ × ArenaStreamPayload) :=
  (shown (⟨"", 0, ""⟩, e)).map content

/-! ## The streams -/

section Streams

variable {t u : ArenaStream} {label : StreamStep}

/-- What a client has been sent stays sent. -/
theorem received_grows (hs : ArenaStream.Step t label u) (c : ℕ) :
    t.received c <+: u.received c := by
  rcases step_cases hs with ⟨c', rfl, -, rfl⟩ | ⟨c', σ, state, rfl, -, rfl⟩ |
    ⟨σ, state, answer, throws, rfl, -, rfl⟩ | ⟨σ, state, polling, rfl, -, rfl⟩ |
    ⟨σ, state, throws, rfl, -, rfl⟩
  · have hsame : (t.subscribeArena c').received = t.received := by
      unfold ArenaStream.subscribeArena
      split <;> rfl
    rw [hsame]
  · have hsame : (t.unsubscribe c' σ state).received = t.received := by
      unfold ArenaStream.unsubscribe
      dsimp only
      split_ifs <;> rfl
    rw [hsame]
  · have hmore : ∃ new, (state.deliver answer throws t.received).received c =
        t.received c ++ new := by
      cases answer with
      | error message =>
        obtain ⟨new, hnew, -⟩ := (failed_sends message t.received).more c
        exact ⟨new, hnew⟩
      | ok snapshot =>
        by_cases hfirst : state.isFirstPoll = true
        · have hdeliver : state.deliver (.ok snapshot) throws t.received =
              state.firstSnapshot snapshot throws t.received := if_pos hfirst
          obtain ⟨new, hnew, -⟩ := (firstSnapshot_sends t.received).more c
          exact ⟨new, hdeliver ▸ hnew⟩
        · have hdeliver : state.deliver (.ok snapshot) throws t.received =
              state.laterSnapshot snapshot throws t.received := if_neg hfirst
          obtain ⟨new, hnew, -⟩ := (laterSnapshot_sends t.received).more c
          exact ⟨new, hdeliver ▸ hnew⟩
    obtain ⟨new, hnew⟩ := hmore
    exact ⟨new, hnew.symm⟩
  · exact List.prefix_refl _
  · show t.received c <+: (t.beat state throws).received c
    unfold ArenaStream.beat
    dsimp only
    split_ifs
    · exact List.prefix_append _ _
    · exact List.prefix_refl _

end Streams

/-! ## What arrives -/

section Events

variable {i : ℕ} {arenaId createdAt : String} {e : StreamEvent} {event : ArenaStreamEvent}

/-- The stamp is no part of the content. -/
theorem content_shown (stamp : Stamp) (e : StreamEvent) :
    (shown (stamp, e)).map content = contentOf e := by
  cases e <;> rfl

theorem shown_of_isError (stamp : Stamp) (h : isError e = true) : shown (stamp, e) = none := by
  cases e <;> first | rfl | cases h

theorem shown_arenaId {stamp : Stamp} (h : shown (stamp, e) = some event) :
    event.arenaId = stamp.arenaId := by
  cases e <;> cases h <;> rfl

/-- What the handler is given of an event that arrives. -/
theorem eventFor_hookStep (i j : ℕ) : Spectating.eventFor j (hookStep i arenaId createdAt e) =
    if i = j then shown (⟨arenaId, 0, createdAt⟩, e) else none := by
  unfold hookStep
  by_cases herror : isError e = true
  · rw [if_pos herror, shown_of_isError _ herror, ite_self]
    rfl
  · rw [if_neg herror]
    cases shown (⟨arenaId, 0, createdAt⟩, e) with
    | none => exact (ite_self _).symm
    | some event => rfl

/-- The numbers of what is handled are among those that are sent. -/
theorem numbers_sublist (events : List StreamEvent) :
    ((events.filterMap contentOf).map (·.1)).Sublist (events.filterMap StreamEvent.number) := by
  induction events with
  | nil => exact List.Sublist.refl _
  | cons e events ih =>
    cases e with
    | heartbeat => exact ih
    | error n _ => exact ih.cons n
    | snapshot n _ | playerEliminated n _ | roundResolved n _ | gameFinished n _ =>
      exact ih.cons_cons n

end Events

/-! ## Whole runs -/

namespace Spectating

section Runs

variable {tr : List (Spectating × SpectatorStep)} {s s' : Spectating} {a : SpectatorStep}
  {i : ℕ}

/-- The steps of the hook in a history of the system. -/
def hookHistory (tr : List (Spectating × SpectatorStep)) : List (StreamHook × HookStep) :=
  tr.filterMap fun e => (e.1.stepOfHook e.2).map fun a => (e.1.hook, a)

theorem stepOfHook_own {b : HookStep} (hown : isOwn b = true) :
    s.stepOfHook (.hook b) = some b := if_pos hown

theorem hookHistory_cons {b : HookStep} (h : s.stepOfHook a = some b) :
    hookHistory ((s, a) :: tr) = (s.hook, b) :: hookHistory tr :=
  List.filterMap_cons_some (by rw [h]; rfl)

/-- The hook takes its own steps, and is as it was in the others. -/
theorem hook_of_run (hrun : Run Step initial tr s) :
    Run StreamHook.Step (.fresh 0) (hookHistory tr) s.hook := by
  induction hrun with
  | nil => exact .nil
  | @snoc tr s a s' _ hs ih =>
    cases hs with
    | serve _ => exact ih
    | accept _ _ _ => exact ih
    | @arrive i createdAt b h ha hstep =>
      have hb : s.stepOfHook (.arrive i createdAt) = some b := ha
      rw [hookHistory_cons hb]
      exact .snoc ih hstep
    | @hook b h hown hstep =>
      rw [hookHistory_cons (stepOfHook_own hown)]
      exact .snoc ih hstep

/-- The stream of an arena takes its own steps. -/
theorem stream_of_run (hrun : Run Step initial tr s) (arenaId : String) :
    ∃ tr', Run ArenaStream.Step .empty tr' (s.streams arenaId) := by
  have hput : ∀ {streams : String → ArenaStream} {arenaId' : String} {label : StreamStep}
      {t : ArenaStream}, ArenaStream.Step (streams arenaId') label t →
      (∃ tr', Run ArenaStream.Step .empty tr' (streams arenaId)) →
        ∃ tr', Run ArenaStream.Step .empty tr' (Function.update streams arenaId' t arenaId) := by
    rintro streams arenaId' label t hstep ⟨tr', hrun'⟩
    by_cases harena : arenaId = arenaId'
    · subst harena
      rw [Function.update_self]
      exact ⟨_, .snoc hrun' hstep⟩
    · rw [Function.update_of_ne harena]
      exact ⟨tr', hrun'⟩
  induction hrun with
  | nil => exact ⟨[], .nil⟩
  | snoc _ hs ih =>
    cases hs with
    | serve hstep => exact hput hstep ih
    | accept _ _ hstep => exact hput hstep ih
    | arrive _ _ => exact ih
    | hook _ _ => exact ih

theorem handledFrom_cons : handledFrom i ((s, a) :: tr) =
    handledFrom i tr ++ (eventOf i (s, a)).toList := by
  unfold handledFrom
  rw [List.reverse_cons, List.filterMap_append]
  cases heq : eventOf i (s, a) <;> simp [heq]

/-- What has arrived at a source, and what has been handled of it. -/
structure Arrived (tr : List (Spectating × SpectatorStep)) (s : Spectating) (i : ℕ)
    (source : Source) (c : ℕ) : Prop where
  sent : s.arrived i ≤ ((s.streams source.arenaId).received c).length
  handled : (handledFrom i tr).map content =
    (((s.streams source.arenaId).received c).take (s.arrived i)).filterMap contentOf
  own : ∀ e ∈ handledFrom i tr, e.arenaId = source.arenaId
  good : source.closed = false →
    ∀ e ∈ ((s.streams source.arenaId).received c).take (s.arrived i), isError e = false

/-- The same of all sources; at one that is not served, nothing has arrived. -/
structure Faithful (tr : List (Spectating × SpectatorStep)) (s : Spectating) : Prop where
  made : ∀ i c, s.subscriber i = some c → ∃ source, s.hook.sources i = some source
  unserved : ∀ i, s.subscriber i = none → s.arrived i = 0 ∧ handledFrom i tr = []
  arrived : ∀ i source c, s.hook.sources i = some source → s.subscriber i = some c →
    Arrived tr s i source c

/-- A stream that goes on changes nothing of what has arrived. -/
theorem Arrived.grow {source : Source} {c : ℕ} (ha : Arrived tr s i source c)
    (hevent : eventOf i (s, a) = none) (harrived : s'.arrived i = s.arrived i)
    (hgrows : (s.streams source.arenaId).received c <+: (s'.streams source.arenaId).received c) :
    Arrived ((s, a) :: tr) s' i source c := by
  have hsame : handledFrom i ((s, a) :: tr) = handledFrom i tr := by
    rw [handledFrom_cons, hevent]
    exact List.append_nil _
  have htake : ((s'.streams source.arenaId).received c).take (s'.arrived i) =
      ((s.streams source.arenaId).received c).take (s.arrived i) := by
    obtain ⟨new, hnew⟩ := hgrows
    rw [harrived, ← hnew, List.take_append_of_le_length ha.sent]
  exact {
    sent := by rw [harrived]; exact ha.sent.trans hgrows.length_le
    handled := by rw [hsame, htake]; exact ha.handled
    own := by rw [hsame]; exact ha.own
    good := by rw [htake]; exact ha.good }

theorem grows_update {streams : String → ArenaStream} {arenaId : String} {label : StreamStep}
    {t : ArenaStream} (hs : ArenaStream.Step (streams arenaId) label t) (arenaId' : String)
    (c : ℕ) : (streams arenaId').received c <+:
      (Function.update streams arenaId t arenaId').received c := by
  by_cases harena : arenaId' = arenaId
  · subst harena
    rw [Function.update_self]
    exact received_grows hs c
  · rw [Function.update_of_ne harena]

/-- A step of the hook that is no message of the source keeps what has arrived there. -/
theorem Arrived.hook {source source' : Source} {c : ℕ} (ha : Arrived tr s i source c)
    (hevent : eventOf i (s, a) = none) (harrived : s'.arrived i = s.arrived i)
    (hstreams : s'.streams = s.streams) (harena : source'.arenaId = source.arenaId)
    (hclosed : source.closed = true → source'.closed = true) :
    Arrived ((s, a) :: tr) s' i source' c := by
  have hkept : Arrived ((s, a) :: tr) s' i source c :=
    ha.grow hevent harrived (by rw [hstreams])
  exact {
    sent := by rw [harena]; exact hkept.sent
    handled := by rw [harena]; exact hkept.handled
    own := by rw [harena]; exact hkept.own
    good := by
      rw [harena]
      intro hopen
      refine hkept.good ?_
      cases hs : source.closed with
      | false => rfl
      | true =>
        rw [hclosed hs] at hopen
        cases hopen }

/-- A source that has been there before a step. -/
theorem source_before {h h' : StreamHook} (hkeeps : StreamHook.Keeps h.sources h'.sources)
    {source source' : Source} (hs : h.sources i = some source) (hs' : h'.sources i = some source') :
    source'.arenaId = source.arenaId ∧ (source.closed = true → source'.closed = true) := by
  obtain ⟨source'', hs'', harena, hclosed⟩ := hkeeps i source hs
  obtain rfl := Option.some.inj (hs'.symm.trans hs'')
  exact ⟨harena, hclosed⟩

theorem eventOf_own {b : HookStep} (hown : isOwn b = true) : eventOf i (s, .hook b) = none := by
  unfold eventOf
  rw [stepOfHook_own hown]
  cases b <;> first | rfl | cases hown

/-- An event arrives. -/
theorem Arrived.next {source source' : Source} {c : ℕ} {createdAt : String} {e : StreamEvent}
    (ha : Arrived tr s i source c) (hsource : s.hook.sources i = some source)
    (hc : s.subscriber i = some c)
    (he : ((s.streams source.arenaId).received c)[s.arrived i]? = some e)
    (harrived : s'.arrived i = s.arrived i + 1) (hstreams : s'.streams = s.streams)
    (harena : source'.arenaId = source.arenaId)
    (hgood : source'.closed = false → source.closed = false ∧ isError e = false) :
    Arrived ((s, .arrive i createdAt) :: tr) s' i source' c := by
  have harrival : s.arrival i createdAt = some (hookStep i source.arenaId createdAt e) := by
    simp only [arrival, hsource, hc, he, Option.bind_some, Option.map_some]
  have hevent : eventOf i (s, .arrive i createdAt) =
      shown (⟨source.arenaId, 0, createdAt⟩, e) := by
    have hstep : s.stepOfHook (.arrive i createdAt) =
        some (hookStep i source.arenaId createdAt e) := harrival
    unfold eventOf
    rw [hstep, Option.bind_some, eventFor_hookStep, if_pos rfl]
  have htake : ((s'.streams source'.arenaId).received c).take (s'.arrived i) =
      ((s.streams source.arenaId).received c).take (s.arrived i) ++ [e] := by
    rw [hstreams, harena, harrived, List.take_add_one, he]
    rfl
  have hlt : s.arrived i < ((s.streams source.arenaId).received c).length :=
    (List.getElem?_eq_some_iff.mp he).1
  exact {
    sent := by rw [hstreams, harena, harrived]; exact hlt
    handled := by
      have hcontent := content_shown ⟨source.arenaId, 0, createdAt⟩ e
      rw [handledFrom_cons, hevent, htake, List.map_append, List.filterMap_append, ha.handled]
      cases hshown : shown (⟨source.arenaId, 0, createdAt⟩, e) with
      | none =>
        rw [hshown] at hcontent
        simp [← hcontent]
      | some event =>
        rw [hshown] at hcontent
        simp [← hcontent]
    own := by
      intro x hx
      rw [handledFrom_cons, hevent] at hx
      rcases List.mem_append.mp hx with hx | hx
      · rw [harena]
        exact ha.own x hx
      · rw [harena]
        exact shown_arenaId (Option.mem_toList.mp hx)
    good := by
      intro hopen x hx
      obtain ⟨hbefore, herror⟩ := hgood hopen
      rw [htake] at hx
      rcases List.mem_append.mp hx with hx | hx
      · exact ha.good hbefore x hx
      · obtain rfl := List.mem_singleton.mp hx
        exact herror }

/-- An error that arrives closes the source. -/
theorem closed_of_failed {h h' : StreamHook} (ho : h.Orderly)
    (hs : StreamHook.Step h (.failed i) h') {source : Source} (hsource : h'.sources i = some source) :
    source.closed = true := by
  cases ho.effect_of_step hs with
  | failed _ _ hr =>
    cases hclosed : source.closed with
    | true => rfl
    | false =>
      have href := hr.linked.single i source hsource hclosed
      rw [hr.source] at href
      cases href

theorem Faithful.step (hf : Faithful tr s) (ho : s.hook.Orderly) (hs : Step s a s') :
    Faithful ((s, a) :: tr) s' := by
  have hquiet : ∀ {j : ℕ}, eventOf j (s, a) = none →
      handledFrom j ((s, a) :: tr) = handledFrom j tr := fun hevent => by
    rw [handledFrom_cons, hevent]
    exact List.append_nil _
  cases hs with
  | serve hstep =>
    exact ⟨hf.made, fun j hj => ⟨(hf.unserved j hj).1, (hquiet rfl).trans (hf.unserved j hj).2⟩,
      fun j source c hsource hc => (hf.arrived j source c hsource hc).grow rfl rfl
        (grows_update hstep _ c)⟩
  | @accept i c source t hsource hnew hstep =>
    refine ⟨fun j d hd => ?_, fun j hj => ?_, fun j source' d hsource' hd => ?_⟩
    · by_cases hji : j = i
      · subst hji
        exact ⟨source, hsource⟩
      · exact hf.made j d ((Function.update_of_ne hji _ _).symm.trans hd)
    · have hji : j ≠ i := by
        rintro rfl
        replace hj := (Function.update_self j (some c) s.subscriber).symm.trans hj
        cases hj
      have hold := hf.unserved j ((Function.update_of_ne hji _ _).symm.trans hj)
      exact ⟨hold.1, (hquiet rfl).trans hold.2⟩
    · by_cases hji : j = i
      · subst hji
        obtain ⟨hzero, hnil⟩ := hf.unserved j hnew
        have hnone : handledFrom j ((s, .accept j c) :: tr) = [] := (hquiet rfl).trans hnil
        exact {
          sent := by
            show s.arrived j ≤ _
            rw [hzero]
            exact Nat.zero_le _
          handled := by
            show _ = (List.take (s.arrived j) _).filterMap contentOf
            rw [hnone, hzero]
            rfl
          own := by rw [hnone]; simp
          good := by
            show _ → ∀ e ∈ List.take (s.arrived j) _, _
            rw [hzero]
            simp }
      · exact (hf.arrived j source' d hsource' ((Function.update_of_ne hji _ _).symm.trans hd)).grow
          rfl rfl (grows_update hstep _ d)
  | @arrive i createdAt b h hb hstep =>
    have hkeeps := (ho.effect_of_step hstep).keeps
    obtain ⟨source, hsource, hrest⟩ := Option.bind_eq_some_iff.mp hb
    obtain ⟨c, hc, hrest⟩ := Option.bind_eq_some_iff.mp hrest
    obtain ⟨e, he, rfl⟩ := Option.map_eq_some_iff.mp hrest
    have hother : ∀ {j : ℕ}, j ≠ i → eventOf j (s, .arrive i createdAt) = none := by
      intro j hji
      have hstep : s.stepOfHook (.arrive i createdAt) =
          some (hookStep i source.arenaId createdAt e) := hb
      unfold eventOf
      rw [hstep, Option.bind_some, eventFor_hookStep, if_neg hji.symm]
    refine ⟨fun j d hd => ?_, fun j hj => ?_, fun j source' d hsource' hd => ?_⟩
    · obtain ⟨source', hsource'⟩ := hf.made j d hd
      obtain ⟨source'', hsource'', -⟩ := hkeeps j source' hsource'
      exact ⟨source'', hsource''⟩
    · have hji : j ≠ i := by
        rintro rfl
        replace hj := hc.symm.trans hj
        cases hj
      have hold := hf.unserved j hj
      exact ⟨(Function.update_of_ne hji _ _).trans hold.1, (hquiet (hother hji)).trans hold.2⟩
    · obtain ⟨before, hbefore⟩ := hf.made j d hd
      obtain ⟨harena, hclosed⟩ := source_before hkeeps hbefore hsource'
      by_cases hji : j = i
      · subst hji
        obtain rfl := Option.some.inj (hsource.symm.trans hbefore)
        obtain rfl := Option.some.inj (hc.symm.trans hd)
        refine (hf.arrived j source c hsource hc).next hsource hc he (Function.update_self _ _ _)
          rfl harena fun hopen => ⟨?_, ?_⟩
        · cases hs : source.closed with
          | false => rfl
          | true =>
            rw [hclosed hs] at hopen
            cases hopen
        · cases herror : isError e with
          | false => rfl
          | true =>
            rw [hookStep, if_pos herror] at hstep
            rw [closed_of_failed ho hstep hsource'] at hopen
            cases hopen
      · exact (hf.arrived j before d hbefore hd).hook (hother hji) (Function.update_of_ne hji _ _)
          rfl harena hclosed
  | @hook b h hown hstep =>
    have hkeeps := (ho.effect_of_step hstep).keeps
    refine ⟨fun j d hd => ?_, fun j hj => ?_, fun j source' d hsource' hd => ?_⟩
    · obtain ⟨source, hsource⟩ := hf.made j d hd
      obtain ⟨source'', hsource'', -⟩ := hkeeps j source hsource
      exact ⟨source'', hsource''⟩
    · exact ⟨(hf.unserved j hj).1, (hquiet (eventOf_own hown)).trans (hf.unserved j hj).2⟩
    · obtain ⟨before, hbefore⟩ := hf.made j d hd
      obtain ⟨harena, hclosed⟩ := source_before hkeeps hbefore hsource'
      exact (hf.arrived j before d hbefore hd).hook (eventOf_own hown) rfl rfl harena hclosed

theorem faithful_initial : Faithful [] initial :=
  ⟨(fun _ _ h => nomatch h), fun _ _ => ⟨rfl, rfl⟩, fun _ _ _ _ h => nomatch h⟩

/-- In every run of the pollers with their clients and of a hook: on each connection the hook
    handles what has been sent on it so far, in order and once; nothing comes after an error; and
    the numbers ascend. What is shown is what the events handled show. -/
theorem faithful_of_run (hrun : Run Step initial tr s) :
    (∀ i source c, s.hook.sources i = some source → s.subscriber i = some c →
      Arrived tr s i source c ∧ ((handledFrom i tr).map (·.sequence)).Pairwise (· < ·)) ∧
    s.hook.Disciplined ∧
    s.hook.view = ArenaStreamView.initial.receive (StreamHook.handled (hookHistory tr)) := by
  have hhook := hook_of_run hrun
  have hfaithful : Faithful tr s := hrun.history (I := Faithful) faithful_initial
    fun _ _ _ _ hr hf hs => hf.step (StreamHook.orderly_of_run (hook_of_run hr)) hs
  refine ⟨fun i source c hsource hc => ?_, (StreamHook.orderly_of_run hhook).disciplined,
    StreamHook.view_of_run hhook⟩
  have harrived := hfaithful.arrived i source c hsource hc
  refine ⟨harrived, ?_⟩
  obtain ⟨tr', hstream⟩ := stream_of_run hrun source.arenaId
  have hsent := (streams_of_run hstream).ascending c
  have hsub : ((handledFrom i tr).map (·.sequence)).Sublist
      (((s.streams source.arenaId).received c).filterMap StreamEvent.number) := by
    have hnumbers : (handledFrom i tr).map (·.sequence) =
        ((handledFrom i tr).map content).map (·.1) := by rw [List.map_map]; rfl
    rw [hnumbers, harrived.handled]
    exact (numbers_sublist _).trans ((List.take_sublist _ _).filterMap _)
  exact hsent.sublist hsub

/-- A client connects, and the first snapshot arrives. -/
theorem faithful_of_run_snapshot : ∃ tr s, Run Step initial tr s ∧
    (handledFrom 0 tr).map (·.sequence) = [1] ∧ s.hook.view.snapshot.isSome = true ∧
      Arrived tr s 0 ⟨"arena", false⟩ 7 := by
  have hrun : Run Step initial [(_, .arrive 0 "now"),
      (_, .serve "arena" (.polled 0 (.ok ⟨"arena", 1, 3, 3, "active", [], none⟩) [])),
      (_, .accept 0 7), (_, .hook (.effect "arena" false))] _ :=
    .snoc (.snoc (.snoc (.single (.hook rfl rfl)) (.accept rfl rfl rfl)) (.serve rfl))
      (.arrive rfl rfl)
  exact ⟨_, _, hrun, rfl, rfl, ((faithful_of_run hrun).1 0 ⟨"arena", false⟩ 7 rfl rfl).1⟩

end Runs

end Spectating

end InverseArena.Composition
