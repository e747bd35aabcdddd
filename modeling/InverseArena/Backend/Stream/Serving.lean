import InverseArena.Backend.Stream.Sending
import Mathlib.Data.List.Basic

/-!
# What the clients of a stream have received

The polls as steps of preorders on deliveries, and the pollers of a run with the clients
they serve.

Results:
* `Unrepeated`, `laterSnapshot_unrepeated`: what has been seen is not sent again.
* `Served.polled`: what a poll keeps of what a client has received.
* `step_cases`: what a step of the stream does.
* `streams_of_run`, `Streams.ascending`: in every run each client is served by one
  poller, and its numbers ascend.
-/

namespace InverseArena.Backend.Stream

open Transition

/-- The eliminations of a snapshot. -/
def ArenaSnapshot.ids (snapshot : ArenaSnapshot) : List String :=
  snapshot.recentEliminations.map (·.id)

/-- The snapshot that a step brings to the poller `σ`. -/
def StreamStep.snapshotFor (σ : ℕ) : StreamStep → Option ArenaSnapshot
  | .polled σ' (.ok snapshot) _ => if σ' = σ then some snapshot else none
  | _ => none

/-- The elimination was in a snapshot that the poller has polled. -/
def Appeared (σ : ℕ) (id : String) (tr : List (ArenaStream × StreamStep)) : Prop :=
  ∃ e ∈ tr, ∃ snapshot ∈ e.2.snapshotFor σ, id ∈ snapshot.ids

variable {d d' d'' : Delivery} {c : ℕ} {throws : List ℕ} {event : ℕ → StreamEvent}
variable {state : ArenaPollerState} {snapshot : ArenaSnapshot}

/-! ## Polls that tell of no elimination -/

/-- Nothing is sent about eliminations, and none is marked. -/
structure Quiet (d d' : Delivery) : Prop where
  seen : d'.seen = d.seen
  eliminations : ∀ j, eliminations (d'.received j) = eliminations (d.received j)

theorem Quiet.refl (d : Delivery) : Quiet d d := ⟨rfl, fun _ => rfl⟩

theorem Quiet.trans (h : Quiet d d') (h' : Quiet d' d'') : Quiet d d'' :=
  ⟨h'.seen.trans h.seen, fun j => (h'.eliminations j).trans (h.eliminations j)⟩

theorem send_quiet (hevent : ∀ n, (event n).elimination = none) :
    Quiet d (send throws c event d).2 :=
  ⟨send_seen, eliminations_send hevent⟩

/-- The rule for what a subscriber is told besides eliminations. -/
theorem announceChanges_rel {R : Delivery → Delivery → Prop} (hrefl : ∀ d, R d d)
    (htrans : ∀ {d d' d''}, R d d' → R d' d'' → R d d'')
    (hsend : ∀ d (event : ℕ → StreamEvent), (∀ n, (event n).number = some n) →
      (∀ n, (event n).elimination = none) → R d (send throws c event d).2) (d : Delivery) :
    R d (state.announceChanges snapshot throws c d) := by
  have hfinished : ∀ d, R d (if state.finishes snapshot = true then
      (send throws c (.gameFinished · ⟨snapshot.arenaId, snapshot.currentRound,
        snapshot.survivorCount, snapshot.status⟩) d).2 else d) := by
    intro d
    split_ifs
    · exact hsend d _ (fun _ => rfl) fun _ => rfl
    · exact hrefl d
  unfold ArenaPollerState.announceChanges
  by_cases hresolves : state.resolves snapshot = true
  · have hresolved := hsend d (.roundResolved · ⟨snapshot.arenaId, snapshot.currentRound,
      snapshot.playerCount, snapshot.survivorCount, snapshot.status⟩) (fun _ => rfl) fun _ => rfl
    rw [if_pos hresolves]
    generalize send throws c (.roundResolved · ⟨snapshot.arenaId, snapshot.currentRound,
      snapshot.playerCount, snapshot.survivorCount, snapshot.status⟩) d = sent at hresolved ⊢
    dsimp only
    by_cases hthrown : (!sent.1) = true
    · rw [if_pos hthrown]
      exact hresolved
    · rw [if_neg hthrown]
      exact htrans hresolved (hfinished _)
  · rw [if_neg hresolves]
    exact hfinished d

theorem announceChanges_quiet (d : Delivery) :
    Quiet d (state.announceChanges snapshot throws c d) :=
  announceChanges_rel .refl .trans (fun _ _ _ hevent => send_quiet hevent) d

theorem announceChanges_sends (d : Delivery) :
    Sends [c] (fun _ => True) d (state.announceChanges snapshot throws c d) :=
  announceChanges_rel .refl .trans (fun _ _ hnumber _ => send_sends trivial hnumber) d

/-- Nothing has changed. -/
theorem announceChanges_of_same (hresolves : state.resolves snapshot ≠ true)
    (hfinishes : state.finishes snapshot ≠ true) (d : Delivery) :
    state.announceChanges snapshot throws c d = d := by
  unfold ArenaPollerState.announceChanges
  rw [if_neg hresolves]
  dsimp only
  rw [if_neg hfinishes]
  rfl

theorem Quiet.marks (h : Quiet d d') (ids : List String) : Marks ids d d' where
  kept := by rw [h.seen]; exact fun _ => id
  bounded := by rw [h.seen]; exact fun _ => .inl
  knows j hj := by
    intro id hid
    rw [h.eliminations] at hid
    rw [h.seen]
    exact hj id hid

/-! ## Later polls -/

/-- What has been seen is not sent again. -/
structure Unrepeated (d d' : Delivery) : Prop where
  kept : d.seen ⊆ d'.seen
  count : ∀ j, ∀ id ∈ d.seen,
    (eliminations (d'.received j)).count id = (eliminations (d.received j)).count id

theorem Unrepeated.refl (d : Delivery) : Unrepeated d d := ⟨fun _ => id, fun _ _ _ => rfl⟩

theorem Unrepeated.trans (h : Unrepeated d d') (h' : Unrepeated d' d'') : Unrepeated d d'' where
  kept := fun _ hmem => h'.kept (h.kept hmem)
  count j id hid := (h'.count j id (h.kept hid)).trans (h.count j id hid)

theorem Quiet.unrepeated (h : Quiet d d') : Unrepeated d d' where
  kept := by rw [h.seen]; exact fun _ => id
  count j id _ := by rw [h.eliminations]

/-- The event about an elimination that is new. -/
theorem send_unrepeated (e : Elimination) (hnew : e.id ∉ d.seen) :
    Unrepeated d (send throws c (.playerEliminated · e) { d with seen := e.id :: d.seen }).2 where
  kept := by
    rw [send_seen]
    exact List.subset_cons_self _ _
  count j id hid := by
    have hne : e.id ≠ id := by
      rintro rfl
      exact hnew hid
    unfold send
    dsimp only
    split
    · rfl
    · by_cases hj : j = c
      · subst hj
        dsimp only
        rw [Function.update_self, eliminations_append, List.count_append]
        have hzero : (eliminations [.playerEliminated (d.sequence + 1) e]).count id = 0 :=
          List.count_eq_zero_of_not_mem fun hmem => hne (List.mem_singleton.mp hmem).symm
        rw [hzero, Nat.add_zero]
      · dsimp only
        rw [Function.update_of_ne hj]

theorem sendEliminations_unrepeated (es : List Elimination) (d : Delivery) :
    Unrepeated d (sendEliminations throws c es d).2 := by
  induction es generalizing d with
  | nil => exact .refl d
  | cons e rest ih =>
    unfold sendEliminations
    split
    · exact ih d
    · rename_i hnew
      have hsend := @send_unrepeated d c throws e hnew
      dsimp only
      split
      · exact hsend.trans (ih _)
      · exact hsend

/-- The rule for the body of the loop at a later poll. -/
theorem announce_rel {R : Delivery → Delivery → Prop}
    (htrans : ∀ {d d' d''}, R d d' → R d' d'' → R d d'')
    (heliminations : R d (sendEliminations throws c snapshot.recentEliminations d).2)
    (hchanges : ∀ d, R d (state.announceChanges snapshot throws c d)) :
    R d (state.announce snapshot throws d c) := by
  unfold ArenaPollerState.announce
  dsimp only
  split_ifs
  · exact htrans heliminations (hchanges _)
  · exact heliminations

theorem laterSnapshot_sends (received : ℕ → List StreamEvent) :
    Sends state.subscribers (fun _ => True) (state.delivery received)
      (state.laterSnapshot snapshot throws received) := by
  refine Sends.foldl (fun d c hc => ?_) _
  have hannounce : Sends [c] (fun _ => True) d (state.announce snapshot throws d c) :=
    announce_rel .trans (sendEliminations_sends (fun _ _ => trivial) _ d) announceChanges_sends
  exact hannounce.mono (List.cons_subset.mpr ⟨hc, List.nil_subset _⟩) fun _ => id

theorem laterSnapshot_marks (received : ℕ → List StreamEvent) :
    Marks snapshot.ids (state.delivery received)
      (state.laterSnapshot snapshot throws received) :=
  foldl_rel (R := Marks snapshot.ids) (.refl _) .trans
    (fun d _ _ => announce_rel .trans (sendEliminations_marks _ d)
    fun d => (announceChanges_quiet d).marks _) _

theorem laterSnapshot_unrepeated (received : ℕ → List StreamEvent) :
    Unrepeated (state.delivery received) (state.laterSnapshot snapshot throws received) :=
  foldl_rel (R := Unrepeated) .refl .trans
    (fun d _ _ => announce_rel .trans (sendEliminations_unrepeated _ d)
    fun d => (announceChanges_quiet d).unrepeated) _

/-- Nothing is new for the subscriber. -/
theorem announce_of_same (hseen : ∀ e ∈ snapshot.recentEliminations, e.id ∈ d.seen)
    (hsame : ¬ (state.resolves snapshot = true ∨ state.finishes snapshot = true)) :
    state.announce snapshot throws d c = d := by
  unfold ArenaPollerState.announce
  rw [sendEliminations_of_seen hseen]
  exact announceChanges_of_same (fun h => hsame (.inl h)) (fun h => hsame (.inr h)) d

/-! ## First polls and failing polls -/

theorem firstSnapshot_sends (received : ℕ → List StreamEvent) :
    Sends state.subscribers (fun e => e.isSnapshot = true) (state.delivery received)
      (state.firstSnapshot snapshot throws received) := by
  have hloop : Sends state.subscribers (fun e => e.isSnapshot = true)
      { state.delivery received with
        seen := snapshot.recentEliminations.map (·.id) ++ (state.delivery received).seen }
      (state.firstSnapshot snapshot throws received) :=
    Sends.foldl (fun d c hc => (send_sends (by rfl) fun _ => rfl).mono
      (List.cons_subset.mpr ⟨hc, List.nil_subset _⟩) fun _ => id) _
  exact hloop.of_seen

theorem firstSnapshot_quiet (received : ℕ → List StreamEvent) :
    Quiet { state.delivery received with
        seen := snapshot.recentEliminations.map (·.id) ++ (state.delivery received).seen }
      (state.firstSnapshot snapshot throws received) :=
  foldl_rel (R := Quiet) .refl .trans (fun _ _ _ => send_quiet fun _ => rfl) _

theorem failed_sends (message : String) (received : ℕ → List StreamEvent) :
    Sends state.subscribers (fun e => e.isData = false) (state.delivery received)
      (state.failed message throws received) :=
  Sends.foldl (fun d c hc => (send_sends (by rfl) fun _ => rfl).mono
    (List.cons_subset.mpr ⟨hc, List.nil_subset _⟩) fun _ => id) _

theorem failed_quiet (message : String) (received : ℕ → List StreamEvent) :
    Quiet (state.delivery received) (state.failed message throws received) :=
  foldl_rel (R := Quiet) .refl .trans (fun _ _ _ => send_quiet fun _ => rfl) _

/-! ## What clients have received -/

/-- What a client of the poller has received. -/
structure Served (state : ArenaPollerState) (events : List StreamEvent) : Prop where
  numbered : Numbered state.sequence events
  known : ∀ id ∈ eliminations events, id ∈ state.seenEliminations
  unopened : state.isFirstPoll = true → ∀ e ∈ events, e.isData = false

theorem served_nil (state : ArenaPollerState) : Served state [] :=
  ⟨numbered_nil _, (fun _ h => nomatch h), fun _ _ h => nomatch h⟩

/-- Two states of a poller that differ in who listens and when it polls. -/
structure SameRecords (state state' : ArenaPollerState) : Prop where
  sequence : state'.sequence = state.sequence
  seen : state'.seenEliminations = state.seenEliminations
  first : state'.isFirstPoll = state.isFirstPoll

theorem Served.same {state' : ArenaPollerState} {events : List StreamEvent}
    (h : Served state events) (hs : SameRecords state state') : Served state' events := by
  refine ⟨?_, ?_, ?_⟩
  · rw [hs.sequence]
    exact h.numbered
  · rw [hs.seen]
    exact h.known
  · rw [hs.first]
    exact h.unopened

theorem Served.heartbeat {events : List StreamEvent} (h : Served state events) :
    Served state (events ++ [.heartbeat]) where
  numbered := by
    have hsame : (events ++ [StreamEvent.heartbeat]).filterMap StreamEvent.number =
        events.filterMap StreamEvent.number := by
      rw [List.filterMap_append]
      exact List.append_nil _
    refine ⟨?_, ?_⟩
    · rw [hsame]
      exact h.numbered.ascending
    · rw [hsame]
      exact h.numbered.bounded
  known := by
    rw [eliminations_append]
    intro id hid
    exact h.known id ((List.mem_append.mp hid).resolve_right fun hnone => nomatch hnone)
  unopened hfirst e he := by
    rcases List.mem_append.mp he with he | he
    · exact h.unopened hfirst e he
    · cases List.mem_singleton.mp he
      rfl

/-- A poll, as far as a client of the poller is concerned. -/
theorem Served.polled {received : ℕ → List StreamEvent} (h : Served state (received c))
    (answer : Except String ArenaSnapshot) :
    Served (state.polled answer (state.deliver answer throws received)).schedule
      ((state.deliver answer throws received).received c) := by
  cases answer with
  | error message =>
    have hsends := @failed_sends throws state message received
    have hquiet := @failed_quiet throws state message received
    refine ⟨hsends.numbered c h.numbered, ?_, fun hfirst e he => ?_⟩
    · intro id hid
      change id ∈ (state.failed message throws received).seen
      change id ∈ eliminations ((state.failed message throws received).received c) at hid
      rw [hquiet.eliminations] at hid
      rw [hquiet.seen]
      exact h.known id hid
    · obtain ⟨new, hnew, hdata⟩ := hsends.more c
      change e ∈ (state.failed message throws received).received c at he
      rw [hnew] at he
      exact (List.mem_append.mp he).elim (h.unopened hfirst e) (hdata e)
  | ok snapshot =>
    have hopened : ∀ d, (state.polled (.ok snapshot) d).schedule.isFirstPoll = true →
        ∀ e ∈ d.received c, e.isData = false := by
      intro d hfirst
      simp [ArenaPollerState.polled, ArenaPollerState.record, ArenaPollerState.schedule,
        ArenaPollerState.isFirstPoll] at hfirst
    by_cases hfirst : state.isFirstPoll = true
    · have hdeliver : state.deliver (.ok snapshot) throws received =
          state.firstSnapshot snapshot throws received := if_pos hfirst
      rw [hdeliver]
      have hquiet := @firstSnapshot_quiet throws state snapshot received
      refine ⟨(firstSnapshot_sends received).numbered c h.numbered, ?_, hopened _⟩
      intro id hid
      rw [hquiet.eliminations] at hid
      change id ∈ (state.firstSnapshot snapshot throws received).seen
      rw [hquiet.seen]
      exact List.mem_append_right _ (h.known id hid)
    · have hdeliver : state.deliver (.ok snapshot) throws received =
          state.laterSnapshot snapshot throws received := if_neg hfirst
      rw [hdeliver]
      exact ⟨(laterSnapshot_sends received).numbered c h.numbered,
        (laterSnapshot_marks received).knows c h.known, hopened _⟩

/-- The eliminations that a poller has seen have appeared. -/
theorem seen_polled {answer : Except String ArenaSnapshot} {received : ℕ → List StreamEvent}
    {id : String} (hid : id ∈ (state.polled answer
      (state.deliver answer throws received)).schedule.seenEliminations) :
    id ∈ state.seenEliminations ∨ ∃ snapshot, answer = .ok snapshot ∧ id ∈ snapshot.ids := by
  cases answer with
  | error message =>
    change id ∈ (state.failed message throws received).seen at hid
    rw [(failed_quiet message received).seen] at hid
    exact .inl hid
  | ok snapshot =>
    change id ∈ (state.deliver (.ok snapshot) throws received).seen at hid
    unfold ArenaPollerState.deliver at hid
    dsimp only at hid
    split_ifs at hid with hfirst
    · rw [(firstSnapshot_quiet received).seen] at hid
      rcases List.mem_append.mp hid with hid | hid
      · exact .inr ⟨snapshot, rfl, hid⟩
      · exact .inl hid
    · exact ((laterSnapshot_marks received).bounded id hid).imp_right
        fun hid => ⟨snapshot, rfl, hid⟩

/-! ## The pollers of a run -/

/-- The pollers that there are and whom they serve. -/
structure Streams (tr : List (ArenaStream × StreamStep)) (t : ArenaStream) : Prop where
  fresh : ∀ σ, t.created ≤ σ → t.pollers σ = none
  clients : ∀ c σ, t.homes c = some σ → ∃ state, t.pollers σ = some state ∧
    Served state (t.received c)
  strangers : ∀ c, t.homes c = none → t.received c = []
  home : ∀ σ state, t.pollers σ = some state → ∀ c ∈ state.subscribers, t.homes c = some σ
  appeared : ∀ σ state, t.pollers σ = some state → ∀ id ∈ state.seenEliminations,
    Appeared σ id tr

theorem streams_empty : Streams [] .empty :=
  ⟨fun _ _ => rfl, (fun _ _ h => nomatch h), fun _ _ => rfl, (fun _ _ h => nomatch h),
    fun _ _ h => nomatch h⟩

variable {tr : List (ArenaStream × StreamStep)} {t u : ArenaStream} {a : StreamStep} {σ : ℕ}

theorem Appeared.cons {id : String} (h : Appeared σ id tr) :
    Appeared σ id ((t, a) :: tr) := by
  obtain ⟨e, he, hsnapshot⟩ := h
  exact ⟨e, List.mem_cons_of_mem _ he, hsnapshot⟩

/-- After a poller has changed, it is that or another one. -/
theorem setPoller_cases {state state' : ArenaPollerState} {σ' : ℕ}
    (h : (t.setPoller σ state).pollers σ' = some state') :
    σ' = σ ∧ state' = state ∨ t.pollers σ' = some state' := by
  unfold ArenaStream.setPoller at h
  dsimp only at h
  by_cases hσ : σ' = σ
  · subst hσ
    rw [Function.update_self] at h
    exact .inl ⟨rfl, (Option.some.inj h).symm⟩
  · rw [Function.update_of_ne hσ] at h
    exact .inr h

theorem setPoller_eq_none {state : ArenaPollerState} {σ' : ℕ} (hσ : σ' ≠ σ)
    (h : t.pollers σ' = none) : (t.setPoller σ state).pollers σ' = none :=
  (Function.update_of_ne hσ ..).trans h

/-- A poller changes who listens and when it polls; a client may have joined it. -/
theorem Streams.put (h : Streams tr t) {state state' : ArenaPollerState}
    (hstate : t.pollers σ = some state) (hsame : SameRecords state state')
    {homes : ℕ → Option ℕ} {current : Option ℕ}
    (hhomes : ∀ c, homes c = t.homes c ∨ t.homes c = none ∧ homes c = some σ)
    (hsubscribers : ∀ c ∈ state'.subscribers, c ∈ state.subscribers ∨ homes c = some σ) :
    Streams ((t, a) :: tr) { t.setPoller σ state' with homes := homes, current := current } where
  fresh σ' hσ' := by
    have hnone := h.fresh σ' hσ'
    refine setPoller_eq_none (fun heq => ?_) hnone
    rw [heq, hstate] at hnone
    cases hnone
  clients c σ' hc := by
    show ∃ state'', Function.update t.pollers σ (some state') σ' = some state'' ∧ _
    rcases hhomes c with hold | ⟨hnone, hnew⟩
    · obtain ⟨state'', hstate'', hserved⟩ := h.clients c σ' (hold.symm.trans hc)
      by_cases hσ : σ' = σ
      · subst hσ
        obtain rfl : state = state'' := Option.some.inj (hstate.symm.trans hstate'')
        exact ⟨state', Function.update_self .., hserved.same hsame⟩
      · exact ⟨state'', (Function.update_of_ne hσ ..).trans hstate'', hserved⟩
    · obtain rfl : σ = σ' := Option.some.inj (hnew.symm.trans hc)
      refine ⟨state', Function.update_self .., ?_⟩
      show Served state' (t.received c)
      rw [h.strangers c hnone]
      exact served_nil _
  strangers c hc := by
    rcases hhomes c with hold | ⟨-, hnew⟩
    · exact h.strangers c (hold.symm.trans hc)
    · cases hnew.symm.trans hc
  home σ' state'' hstate'' c hc := by
    have hkeep : ∀ σ'', t.homes c = some σ'' → homes c = some σ'' := by
      intro σ'' hhome
      rcases hhomes c with hold | ⟨hnone, -⟩
      · exact hold.trans hhome
      · cases hnone.symm.trans hhome
    rcases setPoller_cases hstate'' with ⟨rfl, rfl⟩ | hother
    · rcases hsubscribers c hc with hold | hnew
      · exact hkeep _ (h.home σ' state hstate c hold)
      · exact hnew
    · exact hkeep _ (h.home σ' state'' hother c hc)
  appeared σ' state'' hstate'' id hid := by
    rcases setPoller_cases hstate'' with ⟨rfl, rfl⟩ | hother
    · rw [hsame.seen] at hid
      exact (h.appeared σ' state hstate id hid).cons
    · exact (h.appeared σ' state'' hother id hid).cons

/-- A client opens a new poller. -/
theorem Streams.create (h : Streams tr t) (hc : t.homes c = none) :
    Streams ((t, a) :: tr) { t.setPoller t.created (ArenaPollerState.initial.add c) with
      created := t.created + 1
      current := some t.created
      homes := Function.update t.homes c (some t.created) } where
  fresh σ hσ := by
    change t.created + 1 ≤ σ at hσ
    exact setPoller_eq_none (by omega) (h.fresh σ (by omega))
  clients c' σ hhome := by
    change Function.update t.homes c _ c' = some σ at hhome
    show ∃ state, Function.update t.pollers t.created _ σ = some state ∧
      Served state (t.received c')
    by_cases hcc : c' = c
    · subst hcc
      rw [Function.update_self] at hhome
      obtain rfl := Option.some.inj hhome
      rw [h.strangers c' hc]
      exact ⟨_, Function.update_self .., served_nil _⟩
    · rw [Function.update_of_ne hcc] at hhome
      obtain ⟨state, hstate, hserved⟩ := h.clients c' σ hhome
      refine ⟨state, ?_, hserved⟩
      rw [Function.update_of_ne, hstate]
      rintro rfl
      rw [h.fresh _ (Nat.le_refl _)] at hstate
      cases hstate
  strangers c' hhome := by
    change Function.update t.homes c _ c' = none at hhome
    by_cases hcc : c' = c
    · subst hcc
      rw [Function.update_self] at hhome
      cases hhome
    · rw [Function.update_of_ne hcc] at hhome
      exact h.strangers c' hhome
  home σ state hstate c' hc' := by
    show Function.update t.homes c _ c' = some σ
    rcases setPoller_cases hstate with ⟨rfl, rfl⟩ | hother
    · obtain rfl : c' = c := List.mem_singleton.mp hc'
      exact Function.update_self ..
    · have hhome := h.home σ state hother c' hc'
      rw [Function.update_of_ne, hhome]
      rintro rfl
      cases hc.symm.trans hhome
  appeared σ state hstate id hid := by
    rcases setPoller_cases hstate with ⟨rfl, rfl⟩ | hother
    · cases hid
    · exact (h.appeared σ state hother id hid).cons

/-- A poller sends to its subscribers and to nobody else. -/
theorem Streams.serve (h : Streams tr t) {state state' : ArenaPollerState}
    (hstate : t.pollers σ = some state) {received : ℕ → List StreamEvent}
    (hsubscribers : state'.subscribers = state.subscribers)
    (hserved : ∀ c, Served state (t.received c) → Served state' (received c))
    (hothers : ∀ c, c ∉ state.subscribers → received c = t.received c)
    (hseen : ∀ id ∈ state'.seenEliminations, id ∈ state.seenEliminations ∨
      Appeared σ id ((t, a) :: tr)) :
    Streams ((t, a) :: tr) { t.setPoller σ state' with received := received } where
  fresh σ' hσ' := by
    have hnone := h.fresh σ' hσ'
    refine setPoller_eq_none (fun heq => ?_) hnone
    rw [heq, hstate] at hnone
    cases hnone
  clients c σ' hc := by
    show ∃ state'', Function.update t.pollers σ (some state') σ' = some state'' ∧
      Served state'' (received c)
    obtain ⟨state'', hstate'', hold⟩ := h.clients c σ' hc
    by_cases hσ : σ' = σ
    · subst hσ
      obtain rfl : state = state'' := Option.some.inj (hstate.symm.trans hstate'')
      exact ⟨state', Function.update_self .., hserved c hold⟩
    · refine ⟨state'', (Function.update_of_ne hσ ..).trans hstate'', ?_⟩
      rw [hothers c fun hmem => hσ (Option.some.inj (hc.symm.trans (h.home σ state hstate c hmem)))]
      exact hold
  strangers c hc := by
    show received c = []
    rw [hothers c fun hmem => by cases hc.symm.trans (h.home σ state hstate c hmem)]
    exact h.strangers c hc
  home σ' state'' hstate'' c hc := by
    rcases setPoller_cases hstate'' with ⟨rfl, rfl⟩ | hother
    · rw [hsubscribers] at hc
      exact h.home σ' state hstate c hc
    · exact h.home σ' state'' hother c hc
  appeared σ' state'' hstate'' id hid := by
    rcases setPoller_cases hstate'' with ⟨rfl, rfl⟩ | hother
    · rcases hseen id hid with hold | hnew
      · exact (h.appeared σ' state hstate id hold).cons
      · exact hnew
    · exact (h.appeared σ' state'' hother id hid).cons

theorem deliver_others {answer : Except String ArenaSnapshot} {received : ℕ → List StreamEvent}
    (hc : c ∉ state.subscribers) : (state.deliver answer throws received).received c =
      received c := by
  cases answer with
  | error message => exact (failed_sends message received).others c hc
  | ok snapshot =>
    unfold ArenaPollerState.deliver
    dsimp only
    split_ifs
    · exact (firstSnapshot_sends received).others c hc
    · exact (laterSnapshot_sends received).others c hc

theorem Streams.polled (h : Streams tr t) {state : ArenaPollerState}
    (hstate : t.pollers σ = some state) (answer : Except String ArenaSnapshot) (throws : List ℕ) :
    Streams ((t, .polled σ answer throws) :: tr)
      { t.setPoller σ (state.polled answer (state.deliver answer throws t.received)).schedule with
        received := (state.deliver answer throws t.received).received } := by
  refine h.serve hstate ?_ (fun c hserved => hserved.polled answer)
    (fun c hc => deliver_others hc) fun id hid => ?_
  · cases answer <;> rfl
  · refine (seen_polled hid).imp_right ?_
    rintro ⟨snapshot, rfl, hmem⟩
    exact ⟨_, List.mem_cons_self, snapshot, if_pos rfl, hmem⟩

theorem Streams.beat (h : Streams tr t) {state : ArenaPollerState}
    (hstate : t.pollers σ = some state) (throws : List ℕ) :
    Streams ((t, a) :: tr) (t.beat state throws) := by
  have hbeat : Streams ((t, a) :: tr)
      { t.setPoller σ state with received := (t.beat state throws).received } := by
    refine h.serve hstate rfl (fun c hserved => ?_)
      (fun c hc => if_neg fun hmem => hc hmem.1) fun _ => .inl
    unfold ArenaStream.beat
    dsimp only
    split_ifs
    · exact hserved.heartbeat
    · exact hserved
  have hpollers : Function.update t.pollers σ (some state) = t.pollers := by
    rw [← hstate, Function.update_eq_self]
  unfold ArenaStream.setPoller at hbeat
  rw [hpollers] at hbeat
  exact hbeat

theorem add_same (state : ArenaPollerState) (c : ℕ) : SameRecords state (state.add c) := by
  unfold ArenaPollerState.add
  dsimp only
  split_ifs <;> exact ⟨rfl, rfl, rfl⟩

theorem add_subscribers (state : ArenaPollerState) (c : ℕ) :
    (state.add c).subscribers = state.subscribers ++ [c] := by
  unfold ArenaPollerState.add
  dsimp only
  split_ifs <;> rfl

theorem Streams.subscribe (h : Streams tr t) (hc : t.homes c = none) :
    Streams ((t, a) :: tr) (t.subscribeArena c) := by
  unfold ArenaStream.subscribeArena
  split
  · rename_i σ state hcurrent
    obtain ⟨σ', -, hfound⟩ := Option.bind_eq_some_iff.mp hcurrent
    obtain ⟨state', hstate, hpair⟩ := Option.map_eq_some_iff.mp hfound
    cases hpair
    refine h.put hstate (add_same state c) (fun c' => ?_) fun c' hc' => ?_
    · by_cases hcc : c' = c
      · subst hcc
        exact .inr ⟨hc, Function.update_self ..⟩
      · exact .inl (Function.update_of_ne hcc ..)
    · rw [add_subscribers] at hc'
      refine (List.mem_append.mp hc').imp_right fun hlast => ?_
      rw [List.mem_singleton.mp hlast]
      exact Function.update_self ..
  · exact h.create hc

theorem Streams.unsubscribe (h : Streams tr t) {state : ArenaPollerState}
    (hstate : t.pollers σ = some state) :
    Streams ((t, a) :: tr) (t.unsubscribe c σ state) := by
  have hremoved : SameRecords state (state.remove c) := ⟨rfl, rfl, rfl⟩
  have hstopped : SameRecords state (state.remove c).stopPollLoop := ⟨rfl, rfl, rfl⟩
  unfold ArenaStream.unsubscribe
  dsimp only
  split_ifs
  · exact h.put hstate hstopped (fun _ => .inl rfl)
      fun c' hc' => .inl (List.mem_of_mem_filter hc')
  · exact h.put hstate hremoved (fun _ => .inl rfl)
      fun c' hc' => .inl (List.mem_of_mem_filter hc')

/-- What a step does. -/
theorem step_cases (hs : ArenaStream.Step t a u) :
    (∃ c, a = .subscribe c ∧ t.homes c = none ∧ u = t.subscribeArena c) ∨
    (∃ c σ state, a = .unsubscribe c ∧ t.pollers σ = some state ∧
      u = t.unsubscribe c σ state) ∨
    (∃ σ state answer throws, a = .polled σ answer throws ∧ t.pollers σ = some state ∧
      u = { t.setPoller σ
          (state.polled answer (state.deliver answer throws t.received)).schedule with
        received := (state.deliver answer throws t.received).received }) ∨
    (∃ σ state polling, a = .timeout σ ∧ t.pollers σ = some state ∧
      u = t.setPoller σ { state with polling := polling }) ∨
    ∃ σ state throws, a = .heartbeat σ throws ∧ t.pollers σ = some state ∧
      u = t.beat state throws := by
  unfold ArenaStream.Step ArenaStream.step at hs
  cases a with
  | subscribe c =>
    dsimp only at hs
    split_ifs at hs with hc
    exact .inl ⟨c, rfl, hc, (Option.some.inj hs).symm⟩
  | unsubscribe c =>
    obtain ⟨σ, -, hσ⟩ := Option.bind_eq_some_iff.mp hs
    obtain ⟨state, hstate, rfl⟩ := Option.map_eq_some_iff.mp hσ
    exact .inr (.inl ⟨c, σ, state, rfl, hstate, rfl⟩)
  | polled σ answer throws =>
    obtain ⟨state, hstate, hpolled⟩ := Option.bind_eq_some_iff.mp hs
    split_ifs at hpolled
    exact .inr (.inr (.inl ⟨σ, state, answer, throws, rfl, hstate,
      (Option.some.inj hpolled).symm⟩))
  | timeout σ =>
    obtain ⟨state, hstate, htimeout⟩ := Option.bind_eq_some_iff.mp hs
    split at htimeout
    · exact .inr (.inr (.inr (.inl ⟨σ, state, _, rfl, hstate, (Option.some.inj htimeout).symm⟩)))
    · cases htimeout
  | heartbeat σ throws =>
    obtain ⟨state, hstate, hbeat⟩ := Option.bind_eq_some_iff.mp hs
    split_ifs at hbeat
    exact .inr (.inr (.inr (.inr ⟨σ, state, throws, rfl, hstate, (Option.some.inj hbeat).symm⟩)))

theorem Streams.step (h : Streams tr t) (hs : ArenaStream.Step t a u) :
    Streams ((t, a) :: tr) u := by
  rcases step_cases hs with ⟨c, rfl, hc, rfl⟩ | ⟨c, σ, state, rfl, hstate, rfl⟩ |
    ⟨σ, state, answer, throws, rfl, hstate, rfl⟩ | ⟨σ, state, polling, rfl, hstate, rfl⟩ |
    ⟨σ, state, throws, rfl, hstate, rfl⟩
  · exact h.subscribe hc
  · exact h.unsubscribe hstate
  · exact h.polled hstate answer throws
  · have hsame : SameRecords state { state with polling := polling } := ⟨rfl, rfl, rfl⟩
    exact h.put hstate hsame (fun _ => .inl rfl) fun _ => .inl
  · exact h.beat hstate throws

theorem streams_of_run (h : Run ArenaStream.Step .empty tr t) : Streams tr t :=
  h.history streams_empty fun _ _ _ _ _ hold hs => hold.step hs

/-- What a subscriber has received comes from its poller. -/
theorem Streams.served (h : Streams tr t) (hstate : t.pollers σ = some state)
    (hc : ∃ state ∈ t.pollers σ, c ∈ state.subscribers) : Served state (t.received c) := by
  obtain ⟨state', hstate', hmem⟩ := hc
  obtain rfl : state = state' := Option.some.inj (hstate.symm.trans hstate')
  obtain ⟨state'', hstate'', hserved⟩ := h.clients c σ (h.home σ state hstate c hmem)
  obtain rfl : state = state'' := Option.some.inj (hstate.symm.trans hstate'')
  exact hserved

/-- In every run numbers ascend. -/
theorem Streams.ascending (h : Streams tr t) (c : ℕ) :
    ((t.received c).filterMap StreamEvent.number).Pairwise (· < ·) := by
  cases hhome : t.homes c with
  | none =>
    rw [h.strangers c hhome]
    exact List.Pairwise.nil
  | some σ =>
    obtain ⟨state, -, hserved⟩ := h.clients c σ hhome
    exact hserved.numbered.ascending

end InverseArena.Backend.Stream
