import InverseArena.Backend.JsString
import InverseArena.Backend.Stream.Poller

/-!
# What a client shows of a stream

`handleEvent` of `features/arena/useArenaStream.ts`: each event updates the snapshot and the
feed of eliminations. The feed knows an elimination by its id and keeps twelve entries; the
number of survivors goes down with every `player_eliminated`.

Results:
* `feed_of_few`: the feed has every elimination known as long as there are at most twelve.
* `unchanged_iff`: when a `player_eliminated` event changes nothing that is shown.
* `redelivery_iff`: the same for an event delivered again, after any events, and what this
  means for a whole stream.
-/

namespace InverseArena.Frontend

open Backend.Stream

/-- `ArenaStreamSnapshot`. -/
structure ArenaStreamSnapshot where
  arenaId : String
  currentRound : ℤ
  playerCount : ℤ
  survivorCount : ℤ
  status : String
  recentEliminations : List Elimination
  lastRoundState : Option String
  deriving DecidableEq, Repr

/-- The type of an event, with its payload. -/
inductive ArenaStreamPayload where
  | snapshot (payload : ArenaStreamSnapshot)
  | playerEliminated (payload : Elimination)
  | roundResolved (roundNumber playerCount survivorCount : ℤ) (status : String)
  | gameFinished
  deriving DecidableEq, Repr

/-- `ArenaStreamEvent`. -/
structure ArenaStreamEvent where
  arenaId : String
  payload : ArenaStreamPayload
  sequence : ℕ
  createdAt : String
  deriving DecidableEq, Repr

/-- `status` of an entry of the feed. -/
inductive FeedStatus where
  | OUT
  | ACTIVE
  deriving DecidableEq, Repr

/-- `ArenaEliminationFeedItem`. The label may end between two surrogates, so it is a list
    of UTF-16 code units. -/
structure ArenaEliminationFeedItem where
  id : String
  label : List UInt16
  roundNumber : ℕ
  status : FeedStatus
  createdAt : String
  deriving DecidableEq, Repr

/-- `formatFeedLabel(userId)`. -/
def formatFeedLabel (userId : String) : List UInt16 :=
  let units := Backend.utf16 userId.toList
  if units.length > 10 then
    units.take 5 ++ Backend.utf16 ['.', '.', '.'] ++ units.drop (units.length - 4)
  else units

/-- The entry that is made of an elimination (lines 140-146 and 160-166). -/
def feedItem (entry : Elimination) : ArenaEliminationFeedItem where
  id := entry.id
  label := formatFeedLabel entry.userId
  roundNumber := entry.roundNumber
  status := .OUT
  createdAt := entry.eliminatedAt

/-- `appendUniqueFeedItem(feed, item)`. -/
def appendUniqueFeedItem (feed : List ArenaEliminationFeedItem) (item : ArenaEliminationFeedItem) :
    List ArenaEliminationFeedItem :=
  if feed.any fun entry => entry.id = item.id then feed else (item :: feed).take 12

/-- The states of the hook that events change. -/
structure ArenaStreamView where
  snapshot : Option ArenaStreamSnapshot
  feed : List ArenaEliminationFeedItem
  latestEvent : Option ArenaStreamEvent
  deriving DecidableEq, Repr

namespace ArenaStreamView

/-- Before the first event. -/
def initial : ArenaStreamView := ⟨none, [], none⟩

/-- `handleEvent(event)`. -/
def handleEvent (view : ArenaStreamView) (event : ArenaStreamEvent) : ArenaStreamView :=
  let view := { view with latestEvent := some event }
  match event.payload with
  | .snapshot nextSnapshot =>
    { view with
      snapshot := some nextSnapshot
      feed := nextSnapshot.recentEliminations.reverse.map feedItem }
  | .playerEliminated payload =>
    { view with
      feed := appendUniqueFeedItem view.feed (feedItem payload)
      snapshot := view.snapshot.map fun current =>
        { current with survivorCount := max 0 (current.survivorCount - 1) } }
  | .roundResolved roundNumber playerCount survivorCount status =>
    { view with
      snapshot := view.snapshot.map fun current =>
        { current with
          currentRound := roundNumber
          playerCount := playerCount
          survivorCount := survivorCount
          status := status
          lastRoundState := some "RESOLVED" } }
  | .gameFinished =>
    { view with snapshot := view.snapshot.map fun current => { current with status := "settled" } }

/-- The view after events. -/
def receive (view : ArenaStreamView) (events : List ArenaStreamEvent) : ArenaStreamView :=
  events.foldl handleEvent view

/-- The ids in the feed. -/
def feedIds (view : ArenaStreamView) : List String := view.feed.map (·.id)

/-- The feed and the snapshot are the same. -/
def SameShown (view view' : ArenaStreamView) : Prop :=
  view.feed = view'.feed ∧ view.snapshot = view'.snapshot

instance (view view' : ArenaStreamView) : Decidable (view.SameShown view') :=
  inferInstanceAs (Decidable (_ ∧ _))

/-- The elimination is in the feed, and there is no survivor left to take off. -/
def Recognises (view : ArenaStreamView) (id : String) : Prop :=
  id ∈ view.feedIds ∧ ∀ current ∈ view.snapshot, current.survivorCount = 0

end ArenaStreamView

open ArenaStreamView

/-! ## What is known of the eliminations -/

/-- `known`, and the eliminations that an event tells of; a snapshot replaces them. -/
def learn (known : List String) (event : ArenaStreamEvent) : List String :=
  match event.payload with
  | .snapshot nextSnapshot => nextSnapshot.recentEliminations.reverse.map (·.id)
  | .playerEliminated payload => if payload.id ∈ known then known else payload.id :: known
  | .roundResolved .. | .gameFinished => known

/-- The eliminations in the last snapshot, and those delivered since. -/
def knownAfter (known : List String) (events : List ArenaStreamEvent) : List String :=
  events.foldl learn known

/-- The event tells of an elimination that is known, whose id is `id`. -/
def Redelivers (known : List String) (event : ArenaStreamEvent) (id : String) : Prop :=
  id ∈ known ∧ ∃ payload, event.payload = .playerEliminated payload ∧ payload.id = id

/-- The events without those that deliver an elimination again. -/
def firstDeliveries : List String → List ArenaStreamEvent → List ArenaStreamEvent
  | _, [] => []
  | known, event :: events =>
    match event.payload with
    | .playerEliminated payload =>
      if payload.id ∈ known then firstDeliveries known events
      else event :: firstDeliveries (learn known event) events
    | _ => event :: firstDeliveries (learn known event) events

variable {view view' : ArenaStreamView} {event : ArenaStreamEvent} {payload : Elimination}

@[simp] theorem feedItem_id (entry : Elimination) : (feedItem entry).id = entry.id := rfl

/-! ## The feed -/

/-- An elimination that is not in the feed comes first in it. -/
theorem ids_appendUniqueFeedItem (feed : List ArenaEliminationFeedItem)
    (item : ArenaEliminationFeedItem) :
    (appendUniqueFeedItem feed item).map (·.id) =
      if item.id ∈ feed.map (·.id) then feed.map (·.id)
      else (item.id :: feed.map (·.id)).take 12 := by
  unfold appendUniqueFeedItem
  by_cases hin : item.id ∈ feed.map (·.id)
  · have hany : feed.any (fun entry => decide (entry.id = item.id)) = true := by
      obtain ⟨entry, hentry, hid⟩ := List.mem_map.mp hin
      exact List.any_eq_true.mpr ⟨entry, hentry, decide_eq_true hid⟩
    rw [if_pos hany, if_pos hin]
  · have hnone : ¬ feed.any (fun entry => decide (entry.id = item.id)) = true := by
      intro hany
      obtain ⟨entry, hentry, hid⟩ := List.any_eq_true.mp hany
      exact hin (List.mem_map.mpr ⟨entry, hentry, of_decide_eq_true hid⟩)
    rw [if_neg hnone, if_neg hin, List.map_take, List.map_cons]

/-- An append leaves a feed as it is exactly if it has the id. -/
theorem appendUniqueFeedItem_eq_self_iff {feed : List ArenaEliminationFeedItem}
    {item : ArenaEliminationFeedItem} :
    appendUniqueFeedItem feed item = feed ↔ item.id ∈ feed.map (·.id) := by
  constructor
  · intro hsame
    by_contra hout
    have hids := ids_appendUniqueFeedItem feed item
    rw [hsame, if_neg hout, List.take_succ_cons] at hids
    -- The id is first on the right, hence in the feed.
    exact hout (hids ▸ List.mem_cons_self)
  · intro hin
    obtain ⟨entry, hentry, hid⟩ := List.mem_map.mp hin
    exact if_pos (List.any_eq_true.mpr ⟨entry, hentry, decide_eq_true hid⟩)

theorem feedIds_playerEliminated (hpayload : event.payload = .playerEliminated payload) :
    (view.handleEvent event).feedIds =
      if payload.id ∈ view.feedIds then view.feedIds else (payload.id :: view.feedIds).take 12 := by
  unfold handleEvent
  rw [hpayload]
  exact ids_appendUniqueFeedItem view.feed (feedItem payload)

/-- While at most twelve eliminations are known, the feed has them all. -/
theorem feedIds_handleEvent {known : List String}
    (hfeed : known.length ≤ 12 → view.feedIds = known) (hfew : (learn known event).length ≤ 12) :
    (view.handleEvent event).feedIds = learn known event := by
  cases hpayload : event.payload with
  | snapshot nextSnapshot => simp [handleEvent, learn, feedIds, hpayload]
  | playerEliminated payload =>
    have hlearn : learn known event =
        if payload.id ∈ known then known else payload.id :: known := by
      simp [learn, hpayload]
    rw [hlearn] at hfew ⊢
    have hknown : known.length ≤ 12 := by
      split_ifs at hfew with hin
      · exact hfew
      · exact Nat.le_of_succ_le hfew
    rw [feedIds_playerEliminated hpayload, hfeed hknown]
    by_cases hin : payload.id ∈ known
    · rw [if_pos hin, if_pos hin]
    · rw [if_neg hin] at hfew
      rw [if_neg hin, if_neg hin, List.take_of_length_le hfew]
  | roundResolved =>
    have hlearn : learn known event = known := by simp [learn, hpayload]
    rw [hlearn] at hfew ⊢
    simpa [handleEvent, feedIds, hpayload] using hfeed hfew
  | gameFinished =>
    have hlearn : learn known event = known := by simp [learn, hpayload]
    rw [hlearn] at hfew ⊢
    simpa [handleEvent, feedIds, hpayload] using hfeed hfew

/-- The feed has every elimination known as long as there are at most twelve. -/
theorem feed_of_few (events : List ArenaStreamEvent)
    (hfew : (knownAfter [] events).length ≤ 12) :
    (initial.receive events).feedIds = knownAfter [] events := by
  have hrun : ∀ (known : List String) (view : ArenaStreamView),
      (known.length ≤ 12 → view.feedIds = known) → (knownAfter known events).length ≤ 12 →
        (view.receive events).feedIds = knownAfter known events := by
    clear hfew
    induction events with
    | nil => exact fun known view hfeed hfew => hfeed hfew
    | cons event events ih =>
      exact fun known view hfeed hfew => ih _ _ (feedIds_handleEvent hfeed) hfew
  exact hrun [] initial (fun _ => rfl) hfew

/-! ## Events that change nothing -/

/-- Taking off a survivor changes a count exactly if it is not zero. -/
theorem survivorCount_kept_iff (n : ℤ) : max 0 (n - 1) = n ↔ n = 0 := by omega

/-- An elimination changes nothing that is shown exactly if the view recognises it. -/
theorem unchanged_iff (hpayload : event.payload = .playerEliminated payload) :
    (view.handleEvent event).SameShown view ↔ view.Recognises payload.id := by
  have hview : view.handleEvent event =
      { view with
        latestEvent := some event
        feed := appendUniqueFeedItem view.feed (feedItem payload)
        snapshot := view.snapshot.map fun current =>
          { current with survivorCount := max 0 (current.survivorCount - 1) } } := by
    unfold handleEvent
    rw [hpayload]
  rw [hview]
  refine and_congr appendUniqueFeedItem_eq_self_iff ?_
  cases view.snapshot with
  | none => simp
  | some current =>
    obtain ⟨arenaId, currentRound, playerCount, survivorCount, status, recent, last⟩ := current
    simpa using survivorCount_kept_iff survivorCount

/-- What is shown after an event depends on what was shown before it. -/
theorem ArenaStreamView.SameShown.handleEvent (h : view.SameShown view')
    (event : ArenaStreamEvent) :
    (view.handleEvent event).SameShown (view'.handleEvent event) := by
  obtain ⟨hfeed, hsnapshot⟩ := h
  unfold ArenaStreamView.handleEvent
  cases event.payload with
  | snapshot nextSnapshot => exact ⟨rfl, rfl⟩
  | playerEliminated payload =>
    exact ⟨congrArg (appendUniqueFeedItem · _) hfeed, congrArg (Option.map _) hsnapshot⟩
  | roundResolved => exact ⟨hfeed, congrArg (Option.map _) hsnapshot⟩
  | gameFinished => exact ⟨hfeed, congrArg (Option.map _) hsnapshot⟩

theorem ArenaStreamView.SameShown.trans {view'' : ArenaStreamView} (h : view.SameShown view')
    (h' : view'.SameShown view'') : view.SameShown view'' :=
  ⟨h.1.trans h'.1, h.2.trans h'.2⟩

/-! ## Whole streams -/

/-- Where each event delivered again is recognised, what is shown is what the events show
    without those delivered again. -/
theorem sameShown_receive {known : List String} (events : List ArenaStreamEvent)
    (hshown : view.SameShown view')
    (hrecognised : ∀ before event after id, events = before ++ event :: after →
      Redelivers (knownAfter known before) event id → (view.receive before).Recognises id) :
    (view.receive events).SameShown (view'.receive (firstDeliveries known events)) := by
  induction events generalizing view view' known with
  | nil => exact hshown
  | cons event events ih =>
    have hrest : ∀ before event' after id, events = before ++ event' :: after →
        Redelivers (knownAfter (learn known event) before) event' id →
          ((view.handleEvent event).receive before).Recognises id :=
      fun before event' after id hevents =>
        hrecognised (event :: before) event' after id (congrArg (event :: ·) hevents)
    have hkept := ih (hshown.handleEvent event) hrest
    cases hpayload : event.payload with
    | playerEliminated payload =>
      by_cases hin : payload.id ∈ known
      · -- The event is left out; it changes nothing, and tells of nothing new.
        have hlearn : learn known event = known := by simp [learn, hpayload, hin]
        have hsame : (view.handleEvent event).SameShown view :=
          (unchanged_iff hpayload).mpr
            (hrecognised [] event events payload.id rfl ⟨hin, payload, hpayload, rfl⟩)
        rw [hlearn] at hrest
        simpa [firstDeliveries, hpayload, hin, receive] using ih (hsame.trans hshown) hrest
      · simpa [firstDeliveries, hpayload, hin, receive] using hkept
    | snapshot | roundResolved | gameFinished =>
      simpa [firstDeliveries, hpayload, receive] using hkept

/-- After any events, one that delivers an elimination again changes nothing that is shown
    exactly if the elimination is in the feed and the snapshot, if there is one, counts no
    survivors. Where all that are delivered again in a stream are so, the stream shows what
    it shows without them. -/
theorem redelivery_iff (events : List ArenaStreamEvent) :
    (∀ event id, Redelivers (knownAfter [] events) event id →
      (((initial.receive events).handleEvent event).SameShown (initial.receive events) ↔
        (initial.receive events).Recognises id)) ∧
    ((∀ before event after id, events = before ++ event :: after →
      Redelivers (knownAfter [] before) event id → (initial.receive before).Recognises id) →
        (initial.receive events).SameShown (initial.receive (firstDeliveries [] events))) := by
  constructor
  · rintro event id ⟨-, payload, hpayload, rfl⟩
    exact unchanged_iff hpayload
  · exact sameShown_receive events ⟨rfl, rfl⟩

/-- A `player_eliminated` event. -/
def eliminatedEvent (sequence : ℕ) (id : String) : ArenaStreamEvent :=
  ⟨"arena", .playerEliminated ⟨id, "user", 1, none, "2026-01-01"⟩, sequence, "2026-01-01"⟩

/-- Before a snapshot has arrived, nothing changes. -/
theorem redelivery_iff_unsnapped :
    ((initial.receive [eliminatedEvent 1 "e"]).handleEvent (eliminatedEvent 2 "e")).SameShown
      (initial.receive [eliminatedEvent 1 "e"]) :=
  ((redelivery_iff [eliminatedEvent 1 "e"]).1 (eliminatedEvent 2 "e") "e"
    ⟨by decide, _, rfl, rfl⟩).mpr ⟨by decide, by decide⟩

/-- The elimination that a snapshot has told of takes off a survivor when it is delivered. -/
theorem not_redelivery_unchanged : ¬ ∀ events event id,
    Redelivers (knownAfter [] events) event id →
      ((initial.receive events).handleEvent event).SameShown (initial.receive events) := by
  intro hall
  have hshown := hall
    [⟨"arena", .snapshot ⟨"arena", 1, 3, 2, "active", [⟨"e", "user", 1, none, "2026-01-01"⟩], none⟩,
      1, "2026-01-01"⟩]
    (eliminatedEvent 2 "e") "e" ⟨by decide, _, rfl, rfl⟩
  exact absurd hshown.2 (by decide)

end InverseArena.Frontend
