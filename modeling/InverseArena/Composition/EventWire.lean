import InverseArena.Backend.Stream.Sending
import InverseArena.Frontend.ArenaStream
import InverseArena.Library.EventStream

/-!
# From the poller to the hook

What `sendEvent` and `sendSnapshot` of `routes/arenas.ts` write for a subscriber, and what the
listeners of `useArenaStream.ts` make of it. A message of the type `error` runs `onerror`, which
closes the connection; there is no listener for `__heartbeat`.

Results:
* `readEvent_value`: an event is read as it has been sent.
* `listened_of_arrived`: what the hook handles of a connection, however the bytes arrive and
  whatever the texts in them are.
-/

namespace InverseArena.Composition

open Backend.Stream Frontend EventStream

/-! ## Values -/

/-- A string, as a value. -/
def str (s : String) : Json := .string (Text.ofString s)

/-- A count, as a value. -/
def num (n : ℕ) : Json := .number (.finite n)

/-- A string or `null`. -/
def strOrNull (s : Option String) : Json := s.elim .null str

/-- An object with these fields. -/
def obj (fields : List (String × Json)) : Json :=
  .object (fields.map fun f => (Text.ofString f.1, f.2))

def eliminationValue (e : Elimination) : Json :=
  obj [("id", str e.id), ("userId", str e.userId), ("roundNumber", num e.roundNumber),
    ("reason", strOrNull e.reason), ("eliminatedAt", str e.eliminatedAt)]

def snapshotValue (s : ArenaSnapshot) : Json :=
  obj [("arenaId", str s.arenaId), ("currentRound", num s.currentRound),
    ("playerCount", num s.playerCount), ("survivorCount", num s.survivorCount),
    ("status", str s.status), ("recentEliminations", .array (s.recentEliminations.map
      eliminationValue)), ("lastRoundState", strOrNull s.lastRoundState)]

def roundResolvedValue (r : RoundResolved) : Json :=
  obj [("arenaId", str r.arenaId), ("roundNumber", num r.roundNumber),
    ("playerCount", num r.playerCount), ("survivorCount", num r.survivorCount),
    ("status", str r.status)]

def gameFinishedValue (g : GameFinished) : Json :=
  obj [("arenaId", str g.arenaId), ("roundNumber", num g.roundNumber),
    ("survivorCount", num g.survivorCount), ("status", str g.status)]

/-- What a call of `sendEvent` or `sendSnapshot` is given besides the event: the id that the
    client has subscribed with, and the time. -/
structure Stamp where
  arenaId : String
  now : ℕ
  createdAt : String
  deriving DecidableEq, Repr

/-- The first argument of `sendEvent`; `sendSnapshot` has `snapshot`. -/
def typeOf : StreamEvent → String
  | .heartbeat => "__heartbeat"
  | .snapshot .. => "snapshot"
  | .playerEliminated .. => "player_eliminated"
  | .roundResolved .. => "round_resolved"
  | .gameFinished .. => "game_finished"
  | .error .. => "error"

/-- The fields that all but heartbeats have. -/
def envelope (type : String) (sequence : ℕ) (stamp : Stamp) (payload : Json) : Json :=
  obj [("type", str type), ("sequence", num sequence), ("arenaId", str stamp.arenaId),
    ("payload", payload), ("createdAt", str stamp.createdAt)]

/-- What is sent, as a value. -/
def valueOf (stamp : Stamp) (e : StreamEvent) : Json :=
  match e with
  | .heartbeat => obj [("ts", num stamp.now)]
  | .snapshot n payload => envelope (typeOf e) n stamp (snapshotValue payload)
  | .playerEliminated n payload => envelope (typeOf e) n stamp (eliminationValue payload)
  | .roundResolved n payload => envelope (typeOf e) n stamp (roundResolvedValue payload)
  | .gameFinished n payload => envelope (typeOf e) n stamp (gameFinishedValue payload)
  | .error n message => envelope (typeOf e) n stamp (obj [("message", str message)])

/-- The message that `sendEvent` or `sendSnapshot` writes a block of. -/
def messageOf (sent : Stamp × StreamEvent) : Message :=
  ⟨Text.ofString (typeOf sent.2), (valueOf sent.1 sent.2).stringify⟩

/-- What `res.write` has written, in bytes. -/
def written (sent : List (Stamp × StreamEvent)) : List ℕ :=
  Buffers.utf8Encode (blocks (sent.map messageOf))

/-! ## Reading -/

/-- `value.key`. -/
def get (value : Json) (key : String) : Option Json :=
  match value with
  | .object fields => Json.field? fields (Text.ofString key)
  | _ => none

def asString : Json → Option String
  | .string s => some (Text.string s)
  | _ => none

def asStringOrNull : Json → Option (Option String)
  | .null => some none
  | .string s => some (some (Text.string s))
  | _ => none

def asNat : Json → Option ℕ
  | .number (.finite x) => if x = ⌊x⌋₊ then some ⌊x⌋₊ else none
  | _ => none

def readElimination (value : Json) : Option Elimination := do
  return {
    id := ← (get value "id").bind asString
    userId := ← (get value "userId").bind asString
    roundNumber := ← (get value "roundNumber").bind asNat
    reason := ← (get value "reason").bind asStringOrNull
    eliminatedAt := ← (get value "eliminatedAt").bind asString }

def readEliminations : Json → Option (List Elimination)
  | .array values => values.mapM readElimination
  | _ => none

def readSnapshot (value : Json) : Option ArenaStreamSnapshot := do
  return {
    arenaId := ← (get value "arenaId").bind asString
    currentRound := ← (get value "currentRound").bind asNat
    playerCount := ← (get value "playerCount").bind asNat
    survivorCount := ← (get value "survivorCount").bind asNat
    status := ← (get value "status").bind asString
    recentEliminations := ← (get value "recentEliminations").bind readEliminations
    lastRoundState := ← (get value "lastRoundState").bind asStringOrNull }

def readRoundResolved (value : Json) : Option ArenaStreamPayload := do
  let roundNumber ← (get value "roundNumber").bind asNat
  let playerCount ← (get value "playerCount").bind asNat
  let survivorCount ← (get value "survivorCount").bind asNat
  let status ← (get value "status").bind asString
  return .roundResolved roundNumber playerCount survivorCount status

/-- The payload of an event, where it has the shape that the hook takes it to have. -/
def readPayload (type : String) (value : Json) : Option ArenaStreamPayload :=
  if type = "snapshot" then (readSnapshot value).map .snapshot
  else if type = "player_eliminated" then (readElimination value).map .playerEliminated
  else if type = "round_resolved" then readRoundResolved value
  else if type = "game_finished" then some .gameFinished
  else none

/-- The value of `JSON.parse(event.data)`, taken as an `ArenaStreamEvent`. -/
def readEvent (value : Json) : Option ArenaStreamEvent := do
  return {
    arenaId := ← (get value "arenaId").bind asString
    payload := ← readPayload (← (get value "type").bind asString) (← get value "payload")
    sequence := ← (get value "sequence").bind asNat
    createdAt := ← (get value "createdAt").bind asString }

/-- The types of messages that have `handleEvent` as their listener. -/
def listenedTypes : List Text :=
  ["snapshot", "player_eliminated", "round_resolved", "game_finished"].map Text.ofString

/-- The events that the listeners of a connection handle, up to the first error. -/
def listened : List Message → List ArenaStreamEvent
  | [] => []
  | m :: ms =>
    if m.type = Text.ofString "error" then []
    else if m.type ∈ listenedTypes then
      ((Json.parse m.data).bind readEvent).toList ++ listened ms
    else listened ms

/-! ## What is written -/

/-- The numbers that are sent with an event. -/
def numbers (sent : Stamp × StreamEvent) : List ℕ :=
  match sent.2 with
  | .heartbeat => [sent.1.now]
  | .snapshot n s => [n, s.currentRound, s.playerCount, s.survivorCount] ++
    s.recentEliminations.map (·.roundNumber)
  | .playerEliminated n e => [n, e.roundNumber]
  | .roundResolved n r => [n, r.roundNumber, r.playerCount, r.survivorCount]
  | .gameFinished n g => [n, g.roundNumber, g.survivorCount]
  | .error n _ => [n]

/-- The numbers in an event are numbers of JavaScript. -/
def HasDoubles (sent : Stamp × StreamEvent) : Prop := ∀ n ∈ numbers sent, Number.IsDouble n

theorem sendable_str (s : String) : (str s).Sendable :=
  Json.sendable_string (Text.wellFormed_ofString s).lt

theorem sendable_num {n : ℕ} (h : Number.IsDouble n) : (num n).Sendable := Json.sendable_number h

theorem sendable_strOrNull (s : Option String) : (strOrNull s).Sendable := by
  cases s with
  | none => exact Json.sendable_null
  | some s => exact sendable_str s

theorem sendable_obj {fields : List (String × Json)} (h : ∀ f ∈ fields, f.2.Sendable) :
    (obj fields).Sendable := by
  refine Json.sendable_object fun f hf => ?_
  obtain ⟨g, hg, rfl⟩ := List.mem_map.mp hf
  exact ⟨(Text.wellFormed_ofString g.1).lt, h g hg⟩

theorem sendable_elimination {e : Elimination} (h : Number.IsDouble e.roundNumber) :
    (eliminationValue e).Sendable := by
  refine sendable_obj ?_
  simp only [List.forall_mem_cons, List.not_mem_nil, IsEmpty.forall_iff, implies_true, and_true]
  exact ⟨sendable_str _, sendable_str _, sendable_num h, sendable_strOrNull _, sendable_str _⟩

theorem sendable_envelope {type : String} {n : ℕ} {stamp : Stamp} {payload : Json}
    (hn : Number.IsDouble n) (hpayload : payload.Sendable) :
    (envelope type n stamp payload).Sendable := by
  refine sendable_obj ?_
  simp only [List.forall_mem_cons, List.not_mem_nil, IsEmpty.forall_iff, implies_true, and_true]
  exact ⟨sendable_str _, sendable_num hn, sendable_str _, hpayload, sendable_str _⟩

theorem HasDoubles.sendable {sent : Stamp × StreamEvent} (h : HasDoubles sent) :
    (valueOf sent.1 sent.2).Sendable := by
  obtain ⟨stamp, e⟩ := sent
  cases e with
  | heartbeat =>
    refine sendable_obj fun f hf => ?_
    obtain rfl := List.mem_singleton.mp hf
    exact sendable_num (h _ List.mem_cons_self)
  | snapshot n s =>
    simp only [HasDoubles, numbers, List.forall_mem_append, List.forall_mem_cons,
      List.forall_mem_map, List.not_mem_nil, IsEmpty.forall_iff, implies_true, and_true] at h
    obtain ⟨⟨hn, hround, hplayers, hsurvivors⟩, heliminations⟩ := h
    refine sendable_envelope hn (sendable_obj ?_)
    simp only [List.forall_mem_cons, List.not_mem_nil, IsEmpty.forall_iff, implies_true, and_true]
    refine ⟨sendable_str _, sendable_num hround, sendable_num hplayers, sendable_num hsurvivors,
      sendable_str _, Json.sendable_array ?_, sendable_strOrNull _⟩
    exact List.forall_mem_map.mpr fun e he => sendable_elimination (heliminations e he)
  | playerEliminated n e =>
    simp only [HasDoubles, numbers, List.forall_mem_cons, List.not_mem_nil, IsEmpty.forall_iff,
      implies_true, and_true] at h
    exact sendable_envelope h.1 (sendable_elimination h.2)
  | roundResolved n r =>
    simp only [HasDoubles, numbers, List.forall_mem_cons, List.not_mem_nil, IsEmpty.forall_iff,
      implies_true, and_true] at h
    obtain ⟨hn, hround, hplayers, hsurvivors⟩ := h
    refine sendable_envelope hn (sendable_obj ?_)
    simp only [List.forall_mem_cons, List.not_mem_nil, IsEmpty.forall_iff, implies_true, and_true]
    exact ⟨sendable_str _, sendable_num hround, sendable_num hplayers, sendable_num hsurvivors,
      sendable_str _⟩
  | gameFinished n g =>
    simp only [HasDoubles, numbers, List.forall_mem_cons, List.not_mem_nil, IsEmpty.forall_iff,
      implies_true, and_true] at h
    obtain ⟨hn, hround, hsurvivors⟩ := h
    refine sendable_envelope hn (sendable_obj ?_)
    simp only [List.forall_mem_cons, List.not_mem_nil, IsEmpty.forall_iff, implies_true, and_true]
    exact ⟨sendable_str _, sendable_num hround, sendable_num hsurvivors, sendable_str _⟩
  | error n message =>
    refine sendable_envelope (h _ List.mem_cons_self) (sendable_obj fun f hf => ?_)
    obtain rfl := List.mem_singleton.mp hf
    exact sendable_str _

/-- A message of the poller can be written as a block: there is no line break in it. -/
theorem HasDoubles.plain {sent : Stamp × StreamEvent} (h : HasDoubles sent) :
    Plain (messageOf sent) := by
  have htype : Text.ofString (typeOf sent.2) ≠ [] ∧
      ∀ c ∈ Text.ofString (typeOf sent.2), Reader.IsInner c := by
    cases sent.2 <;> dsimp only [typeOf] <;> exact ⟨by decide, by decide⟩
  refine ⟨htype.1, htype.2, fun c hc => ?_⟩
  have hprintable := h.sendable.printable c hc
  exact ⟨fun heq => by rw [heq] at hprintable; exact absurd hprintable (by decide),
    fun heq => by rw [heq] at hprintable; exact absurd hprintable (by decide)⟩

theorem wellFormed_block {m : Message} (htype : Text.WellFormed m.type)
    (hdata : Text.WellFormed m.data) : Text.WellFormed (block m.type m.data) := by
  have hbreak : ∀ {t : Text}, Text.WellFormed t → Text.WellFormed (LF :: t) :=
    fun ht => .plain (.inl (by decide)) ht
  refine .append (.append (.append (Text.wellFormed_ofString _) htype) (hbreak .nil)) ?_
  exact .append (.append (Text.wellFormed_ofString _) hdata) (hbreak (hbreak .nil))

theorem wellFormed_blocks {sent : List (Stamp × StreamEvent)} (h : ∀ x ∈ sent, HasDoubles x) :
    Text.WellFormed (blocks (sent.map messageOf)) := by
  refine .flatMap fun m hm => ?_
  obtain ⟨x, hx, rfl⟩ := List.mem_map.mp hm
  exact wellFormed_block (Text.wellFormed_ofString _) (h x hx).sendable.wellFormed

/-! ## What is read -/

/-- The snapshot that the hook keeps. -/
def shownSnapshot (s : ArenaSnapshot) : ArenaStreamSnapshot where
  arenaId := s.arenaId
  currentRound := s.currentRound
  playerCount := s.playerCount
  survivorCount := s.survivorCount
  status := s.status
  recentEliminations := s.recentEliminations
  lastRoundState := s.lastRoundState

/-- The payload that the hook is given, for an event that it listens to. -/
def shownPayload : StreamEvent → Option ArenaStreamPayload
  | .heartbeat => none
  | .snapshot _ payload => some (.snapshot (shownSnapshot payload))
  | .playerEliminated _ payload => some (.playerEliminated payload)
  | .roundResolved _ r =>
    some (.roundResolved r.roundNumber r.playerCount r.survivorCount r.status)
  | .gameFinished _ _ => some .gameFinished
  | .error _ _ => none

/-- What the hook handles of an event that has been sent. -/
def shown (sent : Stamp × StreamEvent) : Option ArenaStreamEvent := do
  let payload ← shownPayload sent.2
  let sequence ← sent.2.number
  return ⟨sent.1.arenaId, payload, sequence, sent.1.createdAt⟩

@[simp] theorem get_obj (fields : List (String × Json)) (key : String) : get (obj fields) key =
    (fields.reverse.find? fun f => f.1 = key).map (·.2) := by
  simp only [get, obj, Json.field?, ← List.map_reverse, List.find?_map, Option.map_map,
    Function.comp_def, Text.ofString_inj]

@[simp] theorem asString_str (s : String) : asString (str s) = some s := by
  simp [asString, str]

@[simp] theorem asStringOrNull_strOrNull (s : Option String) :
    asStringOrNull (strOrNull s) = some s := by
  cases s <;> simp [asStringOrNull, strOrNull, str]

@[simp] theorem asNat_num (n : ℕ) : asNat (num n) = some n := by
  simp [asNat, num]

@[simp] theorem readElimination_value (e : Elimination) :
    readElimination (eliminationValue e) = some e := by
  simp [readElimination, eliminationValue]

@[simp] theorem readEliminations_values (es : List Elimination) :
    readEliminations (.array (es.map eliminationValue)) = some es := by
  unfold readEliminations
  induction es with
  | nil => rfl
  | cons e es ih => simp [ih]

@[simp] theorem readSnapshot_value (s : ArenaSnapshot) :
    readSnapshot (snapshotValue s) = some (shownSnapshot s) := by
  simp [readSnapshot, snapshotValue, shownSnapshot]

/-- An event is read as it has been sent. -/
theorem readEvent_value (sent : Stamp × StreamEvent) :
    readEvent (valueOf sent.1 sent.2) = shown sent := by
  obtain ⟨stamp, e⟩ := sent
  cases e with
  | heartbeat => simp [readEvent, valueOf, shown, shownPayload]
  | _ =>
    simp [readEvent, valueOf, envelope, typeOf, readPayload, readRoundResolved, shown,
      shownPayload, StreamEvent.number, roundResolvedValue]

/-- The event ends the connection. -/
def isError : StreamEvent → Bool
  | .error .. => true
  | _ => false

/-- What the hook handles of events: those before the first error that it listens to. -/
def handledOf (sent : List (Stamp × StreamEvent)) : List ArenaStreamEvent :=
  (sent.takeWhile fun x => !isError x.2).filterMap shown

theorem shown_of_unlistened {sent : Stamp × StreamEvent}
    (h : Text.ofString (typeOf sent.2) ∉ listenedTypes) : shown sent = none := by
  obtain ⟨stamp, e⟩ := sent
  cases e with
  | heartbeat => rfl
  | error => rfl
  | _ => exact absurd (by simp [listenedTypes, typeOf]) h

/-- The listeners read messages as the events they are made of. -/
theorem listened_messages {sent : List (Stamp × StreamEvent)} (h : ∀ x ∈ sent, HasDoubles x) :
    listened (sent.map messageOf) = handledOf sent := by
  induction sent with
  | nil => rfl
  | cons x sent ih =>
    have hrest := ih fun y hy => h y (List.mem_cons_of_mem _ hy)
    have htype : (messageOf x).type = Text.ofString (typeOf x.2) := rfl
    have hname : Text.ofString (typeOf x.2) = Text.ofString "error" ↔ isError x.2 = true := by
      rw [Text.ofString_inj]
      cases x.2 <;> simp [isError, typeOf]
    have hsplit : handledOf (x :: sent) =
        if isError x.2 = true then [] else (shown x).toList ++ handledOf sent := by
      unfold handledOf
      rw [List.takeWhile_cons]
      cases isError x.2 <;> cases hshown : shown x <;> simp [hshown]
    rw [List.map_cons, listened, htype, hrest, hsplit]
    by_cases herror : isError x.2 = true
    · rw [if_pos (hname.mpr herror), if_pos herror]
    · rw [if_neg (mt hname.mp herror), if_neg herror]
      split_ifs with hlisten
      · have hdata : (Json.parse (messageOf x).data).bind readEvent = shown x := by
          rw [messageOf, (h x List.mem_cons_self).sendable.parse, Option.bind_some,
            readEvent_value]
        rw [hdata]
      · rw [shown_of_unlistened hlisten]
        rfl

/-- What the hook handles of a connection is what the poller has sent first, whatever part of
    the bytes has arrived; it handles all that was sent when all of them have. -/
theorem listened_of_arrived {sent : List (Stamp × StreamEvent)} (h : ∀ x ∈ sent, HasDoubles x)
    {bs : List ℕ} (hbs : bs <+: written sent) : ∃ first, first <+: sent ∧
      listened (messages (Buffers.utf8Decode bs)) = handledOf first ∧
      (bs = written sent → first = sent) := by
  have hplain : ∀ m ∈ sent.map messageOf, Plain m := by
    intro m hm
    obtain ⟨x, hx, rfl⟩ := List.mem_map.mp hm
    exact (h x hx).plain
  by_cases hall : bs = written sent
  · refine ⟨sent, List.prefix_refl _, ?_, fun _ => rfl⟩
    rw [hall, written, messages_sent hplain (wellFormed_blocks h), listened_messages h]
  · obtain ⟨first, hfirst, hmap⟩ :=
      List.prefix_map_iff.mp (messages_arrived hplain (wellFormed_blocks h) hbs)
    refine ⟨first, hfirst, ?_, fun heq => absurd heq hall⟩
    rw [hmap, listened_messages fun x hx => h x (hfirst.subset hx)]

/-- A heartbeat, and an elimination whose reason is a block of its own. -/
def sampleSent : List (Stamp × StreamEvent) :=
  [(⟨"arena", 5, "now"⟩, .heartbeat),
    (⟨"arena", 5, "now"⟩, .playerEliminated 1 ⟨"e", "user", 2,
      some "\n\nevent: game_finished\ndata: \x7b\x7d\n\n", "then"⟩)]

/-- The reason is read as a text. -/
theorem listened_of_arrived_reason : ∃ first, first <+: sampleSent ∧
    listened (messages (Buffers.utf8Decode (written sampleSent))) = handledOf first ∧
      (written sampleSent = written sampleSent → first = sampleSent) := by
  refine listened_of_arrived (fun x hx n hn => ?_) (List.prefix_refl _)
  have hsmall : n < 2 ^ 53 := by
    revert n
    revert x
    decide
  exact Number.isDouble_natCast hsmall

end InverseArena.Composition
