import InverseArena.Backend.Stream.Serving

/-!
# Fan-out delivery

One poller state serves all the subscribers of an arena. Its set of eliminations
seen is filled inside the loop over the subscribers (`arenaPoller.ts`, lines
164-182), so that the first of them takes the new ones away from the others, and a
client that subscribes after the first poll is never sent a snapshot.

Results:
* `Reaches.received_of_not`, `Reaches.count_eq_one`: whom a later poll reaches.
* `fan_out_delivers`: every client gets a snapshot first and then each elimination
  once, in the runs in which every later poll reaches all it should.
-/

namespace InverseArena.Backend.Stream

open Transition

/-! ## Who should receive what -/

namespace ArenaStream

/-- The client has received a snapshot. -/
def HasSnapshot (t : ArenaStream) (c : ℕ) : Prop := ∃ e ∈ t.received c, e.isSnapshot = true

/-- The client is subscribed to the poller and has received a snapshot. -/
def Following (t : ArenaStream) (σ c : ℕ) : Prop :=
  (∃ state ∈ t.pollers σ, c ∈ state.subscribers) ∧ t.HasSnapshot c

end ArenaStream

/-- The elimination has first appeared in a snapshot that was polled while the
    client was subscribed and after it had received its own. -/
def Due (c : ℕ) (id : String) : List (ArenaStream × StreamStep) → Prop
  | [] => False
  | (t, a) :: tr => Due c id tr ∨ ∃ σ, ∃ snapshot ∈ a.snapshotFor σ,
    t.Following σ c ∧ id ∈ snapshot.ids ∧ ¬ Appeared σ id tr

/-- Every client has received a snapshot first, nothing out of order, and once each
    elimination that it was to receive. -/
structure Delivers (tr : List (ArenaStream × StreamStep)) (t : ArenaStream) : Prop where
  opened : ∀ c, ∀ e ∈ (t.received c).find? (·.isData), e.isSnapshot = true
  ordered : ∀ c, ((t.received c).filterMap StreamEvent.number).Pairwise (· ≤ ·)
  once : ∀ c id, Due c id tr → (eliminations (t.received c)).count id = 1

/-- A later poll can reach all it should: whoever is told of changes has its
    snapshot, and new eliminations go to the first subscriber, which has one and
    whose calls do not throw, while the others wait for theirs. -/
structure Reaches (t : ArenaStream) (state : ArenaPollerState) (snapshot : ArenaSnapshot)
    (throws : List ℕ) : Prop where
  changes : state.resolves snapshot = true ∨ state.finishes snapshot = true →
    ∀ c ∈ state.subscribers, t.HasSnapshot c
  first : unseen state.seenEliminations snapshot.recentEliminations ≠ [] →
    ∀ c ∈ state.subscribers.head?, t.HasSnapshot c ∧ ∀ n ∈ throws, n ≤ state.sequence ∨
      state.sequence + (unseen state.seenEliminations snapshot.recentEliminations).length < n
  others : unseen state.seenEliminations snapshot.recentEliminations ≠ [] →
    ∀ c ∈ state.subscribers.tail, ¬ t.HasSnapshot c

/-- Every later poll reaches all it should. -/
def FanOutGuarded (_ : List (ArenaStream × StreamStep)) (t : ArenaStream) : StreamStep → Prop
  | .polled σ (.ok snapshot) throws => ∀ state ∈ t.pollers σ, state.isFirstPoll = false →
    Reaches t state snapshot throws
  | _ => True

variable {c : ℕ} {throws : List ℕ}
variable {state : ArenaPollerState} {snapshot : ArenaSnapshot}
variable {tr : List (ArenaStream × StreamStep)} {t u : ArenaStream} {a : StreamStep} {σ : ℕ}

/-! ## Later polls -/

section Reaching

variable {t : ArenaStream} {rest : List ℕ}

/-- The first subscriber gets what is new, and the others nothing. -/
theorem Reaches.laterSnapshot_eq (h : Reaches t state snapshot throws)
    (hnew : unseen state.seenEliminations snapshot.recentEliminations ≠ [])
    (hsubscribers : state.subscribers = c :: rest) :
    ∃ d', state.laterSnapshot snapshot throws t.received =
        state.announceChanges snapshot throws c d' ∧ Sends [c] (fun _ => True)
          (state.delivery t.received) (state.announceChanges snapshot throws c d') ∧
      eliminations (d'.received c) = eliminations (t.received c) ++
        unseen state.seenEliminations snapshot.recentEliminations := by
  obtain ⟨-, hthrows⟩ := h.first hnew c (by rw [hsubscribers]; rfl)
  obtain ⟨d', hsent, hreceived, -, hall⟩ :=
    sendEliminations_of_sent (c := c) (d := state.delivery t.received) hthrows
  have hbody : state.announce snapshot throws (state.delivery t.received) c =
      state.announceChanges snapshot throws c d' := by
    unfold ArenaPollerState.announce
    rw [hsent]
    rfl
  refine ⟨d', ?_, ?_, hreceived⟩
  · unfold ArenaPollerState.laterSnapshot
    rw [hsubscribers, List.foldl_cons, hbody]
    by_cases hsame : state.resolves snapshot = true ∨ state.finishes snapshot = true
    · -- whoever comes second would be told of changes without a snapshot
      cases hrest : rest with
      | nil => rfl
      | cons c' rest' =>
        have hhas := h.changes hsame c' (by rw [hsubscribers, hrest]; simp)
        exact absurd hhas (h.others hnew c' (by rw [hsubscribers, hrest]; simp))
    · refine List.foldl_fixed' (fun c' => announce_of_same (fun e he => ?_) hsame) rest
      rw [(announceChanges_quiet d').seen]
      exact hall e he
  · rw [← hbody]
    exact announce_rel .trans (sendEliminations_sends (fun _ _ => trivial) _ _)
      announceChanges_sends

/-- A client without a snapshot receives nothing. -/
theorem Reaches.received_of_not (h : Reaches t state snapshot throws) (hc : ¬ t.HasSnapshot c) :
    (state.laterSnapshot snapshot throws t.received).received c = t.received c := by
  by_cases hmem : c ∈ state.subscribers
  · by_cases hnew : unseen state.seenEliminations snapshot.recentEliminations = []
    · have hsame : ¬ (state.resolves snapshot = true ∨ state.finishes snapshot = true) :=
        fun hchanges => hc (h.changes hchanges c hmem)
      have hnothing : state.laterSnapshot snapshot throws t.received =
          state.delivery t.received :=
        List.foldl_fixed' (fun c' => announce_of_same (unseen_eq_nil.mp hnew) hsame) _
      rw [hnothing]
      rfl
    · obtain ⟨c₁, rest, hsubscribers⟩ := List.exists_cons_of_ne_nil (List.ne_nil_of_mem hmem)
      obtain ⟨d', heq, hsends, -⟩ := h.laterSnapshot_eq hnew hsubscribers
      have hhas := (h.first hnew c₁ (by rw [hsubscribers]; rfl)).1
      rw [heq]
      refine hsends.others c fun hfirst => hc ?_
      rw [List.mem_singleton.mp hfirst]
      exact hhas
  · exact (laterSnapshot_sends t.received).others c hmem

/-- A client with a snapshot receives what is new. -/
theorem Reaches.count_eq_one (h : Reaches t state snapshot throws) (hmem : c ∈ state.subscribers)
    (hc : t.HasSnapshot c) {id : String} (hid : id ∈ snapshot.ids)
    (hunseen : id ∉ state.seenEliminations) (hfresh : id ∉ eliminations (t.received c)) :
    (eliminations ((state.laterSnapshot snapshot throws t.received).received c)).count id = 1 := by
  have hnew : unseen state.seenEliminations snapshot.recentEliminations ≠ [] := by
    rw [Ne, unseen_eq_nil]
    intro hall
    obtain ⟨e, he, rfl⟩ := List.mem_map.mp hid
    exact hunseen (hall e he)
  obtain ⟨c₁, rest, hsubscribers⟩ := List.exists_cons_of_ne_nil (List.ne_nil_of_mem hmem)
  obtain rfl : c = c₁ := by
    rw [hsubscribers] at hmem
    rcases List.mem_cons.mp hmem with heq | hrest
    · exact heq
    · exact absurd hc (h.others hnew c (by rw [hsubscribers]; exact hrest))
  obtain ⟨d', heq, -, hreceived⟩ := h.laterSnapshot_eq hnew hsubscribers
  rw [heq, (announceChanges_quiet d').eliminations, hreceived, List.count_append,
    List.count_eq_zero_of_not_mem hfresh, count_unseen hunseen hid]

end Reaching

/-! ## Delivery in a run -/

variable {new : List StreamEvent}

theorem isData_of_isSnapshot {e : StreamEvent} (h : e.isSnapshot = true) : e.isData = true := by
  cases e with
  | snapshot => rfl
  | _ => cases h

theorem eliminations_of_noData (h : ∀ e ∈ new, e.isData = false) : eliminations new = [] := by
  refine List.filterMap_eq_nil_iff.mpr fun e he => ?_
  have hdata := h e he
  cases e <;> first | rfl | cases hdata

/-- What follows snapshots and events without data. -/
theorem opened_append {events : List StreamEvent}
    (h : ∀ e ∈ events.find? (·.isData), e.isSnapshot = true)
    (hnew : ∀ e ∈ new, e.isData = true → e.isSnapshot = true) :
    ∀ e ∈ (events ++ new).find? (·.isData), e.isSnapshot = true := by
  intro e he
  rw [List.find?_append] at he
  cases hfound : events.find? (·.isData) with
  | some e' =>
    rw [hfound] at he
    exact h e (hfound.trans he)
  | none =>
    rw [hfound] at he
    exact hnew e (List.mem_of_find?_eq_some he) (List.find?_some he)

/-- What follows a snapshot. -/
theorem find_append {events : List StreamEvent} (h : ∃ e ∈ events, e.isSnapshot = true) :
    (events ++ new).find? (·.isData) = events.find? (·.isData) := by
  rw [List.find?_append]
  cases hfound : events.find? (·.isData) with
  | some e => rfl
  | none =>
    obtain ⟨e, he, hsnapshot⟩ := h
    exact absurd (isData_of_isSnapshot hsnapshot) (List.find?_eq_none.mp hfound e he)

theorem due_cons {id : String} (hnone : ∀ σ, a.snapshotFor σ = none) :
    Due c id ((t, a) :: tr) ↔ Due c id tr := by
  refine ⟨fun h => h.elim (fun hold => hold) ?_, .inl⟩
  rintro ⟨σ, snapshot, hsnapshot, -⟩
  rw [hnone] at hsnapshot
  cases hsnapshot

theorem due_polled {id : String} :
    Due c id ((t, .polled σ (.ok snapshot) throws) :: tr) ↔ Due c id tr ∨
      t.Following σ c ∧ id ∈ snapshot.ids ∧ ¬ Appeared σ id tr := by
  refine or_congr_right ⟨?_, fun h => ⟨σ, snapshot, if_pos rfl, h⟩⟩
  rintro ⟨σ', snapshot', hsnapshot, h⟩
  by_cases hσ : σ = σ'
  · subst hσ
    cases (if_pos rfl : (StreamStep.polled σ (.ok snapshot) throws).snapshotFor σ =
      some snapshot).symm.trans hsnapshot
    exact h
  · cases (if_neg hσ : (StreamStep.polled σ (.ok snapshot) throws).snapshotFor σ' =
      none).symm.trans hsnapshot

/-- A step that brings no snapshot sends no data. -/
theorem Delivers.idle (h : Delivers tr t) (hu : Streams ((t, a) :: tr) u)
    (hnone : ∀ σ, a.snapshotFor σ = none)
    (hmore : ∀ c, ∃ new, u.received c = t.received c ++ new ∧ ∀ e ∈ new, e.isData = false) :
    Delivers ((t, a) :: tr) u where
  opened c := by
    obtain ⟨new, hnew, hdata⟩ := hmore c
    rw [hnew]
    refine opened_append (h.opened c) fun e he htrue => ?_
    cases (hdata e he).symm.trans htrue
  ordered c := (hu.ascending c).imp Nat.le_of_lt
  once c id hdue := by
    obtain ⟨new, hnew, hdata⟩ := hmore c
    rw [hnew, eliminations_append, eliminations_of_noData hdata, List.append_nil]
    exact h.once c id ((due_cons hnone).mp hdue)

/-- The first snapshot of a poller goes to all its subscribers. -/
theorem Delivers.first (h : Delivers tr t) (ht : Streams tr t)
    (hu : Streams ((t, .polled σ (.ok snapshot) throws) :: tr) u)
    (hstate : t.pollers σ = some state) (hfirst : state.isFirstPoll = true)
    (hreceived : u.received = (state.firstSnapshot snapshot throws t.received).received) :
    Delivers ((t, .polled σ (.ok snapshot) throws) :: tr) u where
  opened c := by
    obtain ⟨new, hnew, hsnapshot⟩ := (@firstSnapshot_sends throws state snapshot t.received).more c
    rw [hreceived, hnew]
    exact opened_append (h.opened c) fun e he _ => hsnapshot e he
  ordered c := (hu.ascending c).imp Nat.le_of_lt
  once c id hdue := by
    rw [hreceived, (firstSnapshot_quiet t.received).eliminations]
    rcases due_polled.mp hdue with hold | ⟨⟨hsubscribed, e, he, hsnapshot⟩, -⟩
    · exact h.once c id hold
    · -- nobody has received a snapshot from this poller
      have hdata := (ht.served hstate hsubscribed).unopened hfirst e he
      cases (isData_of_isSnapshot hsnapshot).symm.trans hdata

/-- A later snapshot that reaches all it should. -/
theorem Delivers.later (h : Delivers tr t) (ht : Streams tr t)
    (hu : Streams ((t, .polled σ (.ok snapshot) throws) :: tr) u)
    (hstate : t.pollers σ = some state) (hreaches : Reaches t state snapshot throws)
    (hreceived : u.received = (state.laterSnapshot snapshot throws t.received).received) :
    Delivers ((t, .polled σ (.ok snapshot) throws) :: tr) u where
  opened c := by
    rw [hreceived]
    by_cases hc : t.HasSnapshot c
    · obtain ⟨new, hnew, -⟩ := (@laterSnapshot_sends throws state snapshot t.received).more c
      rw [hnew]
      intro e he
      exact h.opened c e ((find_append hc).symm.trans he)
    · rw [hreaches.received_of_not hc]
      exact h.opened c
  ordered c := (hu.ascending c).imp Nat.le_of_lt
  once c id hdue := by
    rw [hreceived]
    rcases due_polled.mp hdue with hold | ⟨⟨hsubscribed, hc⟩, hid, hnew⟩
    · have hcount := h.once c id hold
      by_cases hmem : c ∈ state.subscribers
      · have hsent : id ∈ eliminations (t.received c) := List.count_pos_iff.mp (by omega)
        have hseen := (ht.served hstate ⟨state, hstate, hmem⟩).known id hsent
        rw [(laterSnapshot_unrepeated t.received).count c id hseen]
        exact hcount
      · rw [(laterSnapshot_sends t.received).others c hmem]
        exact hcount
    · have hunseen : id ∉ state.seenEliminations :=
        fun hseen => hnew (ht.appeared σ state hstate id hseen)
      have hserved := ht.served hstate hsubscribed
      obtain ⟨state', hstate', hmem⟩ := hsubscribed
      obtain rfl : state = state' := Option.some.inj (hstate.symm.trans hstate')
      exact hreaches.count_eq_one hmem hc hid hunseen fun hsent => hunseen (hserved.known id hsent)

theorem Delivers.step (h : Delivers tr t) (ht : Streams tr t) (hguard : FanOutGuarded tr t a)
    (hs : ArenaStream.Step t a u) : Delivers ((t, a) :: tr) u := by
  have hu := ht.step hs
  rcases step_cases hs with ⟨c, rfl, hc, rfl⟩ | ⟨c, σ, state, rfl, hstate, rfl⟩ |
    ⟨σ, state, answer, throws, rfl, hstate, rfl⟩ | ⟨σ, state, polling, rfl, hstate, rfl⟩ |
    ⟨σ, state, throws, rfl, hstate, rfl⟩
  · refine h.idle hu (fun _ => rfl) fun c' => ⟨[], ?_, fun _ he => nomatch he⟩
    rw [List.append_nil]
    unfold ArenaStream.subscribeArena
    split <;> rfl
  · refine h.idle hu (fun _ => rfl) fun c' => ⟨[], ?_, fun _ he => nomatch he⟩
    rw [List.append_nil]
    unfold ArenaStream.unsubscribe
    dsimp only
    split_ifs <;> rfl
  · cases answer with
    | error message =>
      exact h.idle hu (fun _ => rfl) (failed_sends message t.received).more
    | ok snapshot =>
      by_cases hfirst : state.isFirstPoll = true
      · have hdeliver : state.deliver (.ok snapshot) throws t.received =
            state.firstSnapshot snapshot throws t.received := if_pos hfirst
        exact h.first ht hu hstate hfirst (congrArg Delivery.received hdeliver)
      · have hdeliver : state.deliver (.ok snapshot) throws t.received =
            state.laterSnapshot snapshot throws t.received := if_neg hfirst
        have hreaches := hguard state hstate (Bool.eq_false_iff.mpr hfirst)
        exact h.later ht hu hstate hreaches (congrArg Delivery.received hdeliver)
  · exact h.idle hu (fun _ => rfl) fun c => ⟨[], (List.append_nil _).symm, fun _ he => nomatch he⟩
  · refine h.idle hu (fun _ => rfl) fun c => ?_
    by_cases hc : c ∈ state.subscribers ∧ c ∉ throws
    · refine ⟨[.heartbeat], if_pos hc, fun e he => ?_⟩
      rw [List.mem_singleton.mp he]
      rfl
    · exact ⟨[], (if_neg hc).trans (List.append_nil _).symm, fun _ he => nomatch he⟩

theorem delivers_empty : Delivers [] .empty :=
  ⟨(fun _ _ h => nomatch h), fun _ => List.Pairwise.nil, fun _ _ h => h.elim⟩

/-- In the runs in which every later poll reaches all it should, every client gets a
    snapshot first, nothing out of order, and once each elimination that it is to
    receive. -/
theorem fan_out_delivers (h : Run ArenaStream.Step .empty tr t) (hC : EachStep FanOutGuarded tr) :
    AlongRun Delivers tr t :=
  h.alongRun delivers_empty (fun _ _ _ _ hr hold hguard hs =>
    hold.step (streams_of_run hr) hguard hs) hC

/-! ## Sample runs -/

/-- Executes a step and records it. -/
def ArenaStream.perform (a : StreamStep) (t : ArenaStream) : Option (StreamStep × ArenaStream) :=
  (t.step a).map fun u => (a, u)

theorem ArenaStream.perform_step (m : StreamStep) (t : ArenaStream) (a : StreamStep)
    (u : ArenaStream) (h : ArenaStream.perform m t = some (a, u)) : ArenaStream.Step t a u := by
  obtain ⟨u', hu, hpair⟩ := Option.map_eq_some_iff.mp h
  cases hpair
  exact hu

instance (t : ArenaStream) (c : ℕ) : Decidable (t.HasSnapshot c) :=
  inferInstanceAs (Decidable (∃ e ∈ t.received c, e.isSnapshot = true))

instance (t : ArenaStream) (σ c : ℕ) : Decidable (t.Following σ c) :=
  inferInstanceAs (Decidable (_ ∧ _))

instance (σ : ℕ) (id : String) (tr : List (ArenaStream × StreamStep)) :
    Decidable (Appeared σ id tr) :=
  inferInstanceAs (Decidable (∃ e ∈ tr, ∃ snapshot ∈ e.2.snapshotFor σ, id ∈ snapshot.ids))

instance Due.decide (c : ℕ) (id : String) :
    (tr : List (ArenaStream × StreamStep)) → Decidable (Due c id tr)
  | [] => isFalse fun h => h
  | (t, .polled σ (.ok snapshot) _) :: tr =>
    have : Decidable (Due c id tr) := Due.decide c id tr
    decidable_of_iff (Due c id tr ∨ t.Following σ c ∧ id ∈ snapshot.ids ∧ ¬ Appeared σ id tr)
      due_polled.symm
  | (_, .polled _ (.error _) _) :: tr =>
    have : Decidable (Due c id tr) := Due.decide c id tr
    decidable_of_iff (Due c id tr) (due_cons fun _ => rfl).symm
  | (_, .subscribe _) :: tr =>
    have : Decidable (Due c id tr) := Due.decide c id tr
    decidable_of_iff (Due c id tr) (due_cons fun _ => rfl).symm
  | (_, .unsubscribe _) :: tr =>
    have : Decidable (Due c id tr) := Due.decide c id tr
    decidable_of_iff (Due c id tr) (due_cons fun _ => rfl).symm
  | (_, .timeout _) :: tr =>
    have : Decidable (Due c id tr) := Due.decide c id tr
    decidable_of_iff (Due c id tr) (due_cons fun _ => rfl).symm
  | (_, .heartbeat _ _) :: tr =>
    have : Decidable (Due c id tr) := Due.decide c id tr
    decidable_of_iff (Due c id tr) (due_cons fun _ => rfl).symm

theorem reaches_iff {t : ArenaStream} {state : ArenaPollerState} {snapshot : ArenaSnapshot}
    {throws : List ℕ} : Reaches t state snapshot throws ↔
      (state.resolves snapshot = true ∨ state.finishes snapshot = true →
        ∀ c ∈ state.subscribers, t.HasSnapshot c) ∧
      (unseen state.seenEliminations snapshot.recentEliminations ≠ [] →
        (∀ c ∈ state.subscribers.head?, t.HasSnapshot c ∧ ∀ n ∈ throws, n ≤ state.sequence ∨
          state.sequence + (unseen state.seenEliminations
            snapshot.recentEliminations).length < n) ∧
        ∀ c ∈ state.subscribers.tail, ¬ t.HasSnapshot c) :=
  ⟨fun h => ⟨h.changes, fun hnew => ⟨h.first hnew, h.others hnew⟩⟩,
    fun h => ⟨h.1, fun hnew => (h.2 hnew).1, fun hnew => (h.2 hnew).2⟩⟩

instance (t : ArenaStream) (state : ArenaPollerState) (snapshot : ArenaSnapshot)
    (throws : List ℕ) : Decidable (Reaches t state snapshot throws) :=
  decidable_of_iff _ reaches_iff.symm

instance (tr : List (ArenaStream × StreamStep)) (t : ArenaStream) :
    (a : StreamStep) → Decidable (FanOutGuarded tr t a)
  | .polled σ (.ok snapshot) throws => inferInstanceAs (Decidable (∀ state ∈ t.pollers σ,
      state.isFirstPoll = false → Reaches t state snapshot throws))
  | .polled _ (.error _) _ => isTrue trivial
  | .subscribe _ => isTrue trivial
  | .unsubscribe _ => isTrue trivial
  | .timeout _ => isTrue trivial
  | .heartbeat _ _ => isTrue trivial

/-- A snapshot of an arena with the eliminations `ids`. -/
def sampleSnapshot (ids : List String) : ArenaSnapshot :=
  ⟨"a-1", 1, 3, 2, "active", ids.map fun id => ⟨id, "u-1", 1, none, "2025-01-01"⟩, some "OPEN"⟩

/-- The clients `cs` are subscribed, a first poll finds no elimination, and a second
    finds one. -/
def twoPolls (cs : List ℕ) : List StreamStep :=
  cs.map .subscribe ++ [.polled 0 (.ok (sampleSnapshot [])) [], .timeout 0,
    .polled 0 (.ok (sampleSnapshot ["e-1"])) []]

/-- A single client gets its snapshot and the elimination. -/
theorem fan_out_delivers_sample : ∃ tr t, Run ArenaStream.Step .empty tr t ∧
    Due 0 "e-1" tr ∧ AlongRun Delivers tr t := by
  obtain ⟨tr, t, hrun, hdue, hguard⟩ : ∃ tr t, Run ArenaStream.Step .empty tr t ∧
      Due 0 "e-1" tr ∧ EachStep FanOutGuarded tr := by
    have hreplay : ∃ r ∈ replay ArenaStream.perform (twoPolls [0]) [] .empty,
        Due 0 "e-1" r.1 ∧ EachStep FanOutGuarded r.1 := by
      decide
    exact exists_run_of_replay ArenaStream.perform_step hreplay
  exact ⟨tr, t, hrun, hdue, fan_out_delivers hrun hguard⟩

/-- Of two clients that have both received the first snapshot, the second never hears of
    the elimination. -/
theorem not_fan_out_delivers : ∃ tr t, Run ArenaStream.Step .empty tr t ∧
    ¬ Delivers tr t := by
  obtain ⟨tr, t, hrun, hdue, hnever⟩ : ∃ tr t, Run ArenaStream.Step .empty tr t ∧
      Due 1 "e-1" tr ∧ (eliminations (t.received 1)).count "e-1" = 0 := by
    have hreplay : ∃ r ∈ replay ArenaStream.perform (twoPolls [0, 1]) [] .empty,
        Due 1 "e-1" r.1 ∧ (eliminations (r.2.received 1)).count "e-1" = 0 := by
      decide
    exact exists_run_of_replay ArenaStream.perform_step hreplay
  refine ⟨tr, t, hrun, fun h => ?_⟩
  rw [h.once 1 "e-1" hdue] at hnever
  cases hnever

end InverseArena.Backend.Stream
