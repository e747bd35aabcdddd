import InverseArena.Backend.Stream.Poller
import InverseArena.Library.Transition

/-!
# What a poll sends

The loops of a poll over the subscribers and over the eliminations: which clients get
events, how these are numbered, and which eliminations count as seen afterwards.

Results:
* `Sends`: numbers ascend, and nobody else receives anything.
* `Marks`: what is sent about eliminations has been seen.
* `unseen`, `sendEliminations_of_sent`: a client for which no call throws receives the
  eliminations that are new, each once.
-/

namespace InverseArena.Backend.Stream

open Transition

/-! ## Events -/

namespace StreamEvent

/-- `sequence`. -/
def number : StreamEvent → Option ℕ
  | heartbeat => none
  | snapshot sequence _ => some sequence
  | playerEliminated sequence _ => some sequence
  | roundResolved sequence _ => some sequence
  | gameFinished sequence _ => some sequence
  | error sequence _ => some sequence

def isSnapshot : StreamEvent → Bool
  | snapshot _ _ => true
  | _ => false

/-- The events that tell about the arena. -/
def isData : StreamEvent → Bool
  | heartbeat => false
  | error _ _ => false
  | _ => true

/-- The elimination that an event tells about. -/
def elimination : StreamEvent → Option String
  | playerEliminated _ payload => some payload.id
  | _ => none

end StreamEvent

/-- The events are numbered in ascending order, up to `n`. -/
structure Numbered (n : ℕ) (events : List StreamEvent) : Prop where
  ascending : (events.filterMap StreamEvent.number).Pairwise (· < ·)
  bounded : ∀ m ∈ events.filterMap StreamEvent.number, m ≤ n

theorem numbered_nil (n : ℕ) : Numbered n [] := ⟨List.Pairwise.nil, fun _ h => nomatch h⟩

theorem Numbered.mono {n m : ℕ} {events : List StreamEvent} (h : Numbered n events)
    (hle : n ≤ m) : Numbered m events :=
  ⟨h.ascending, fun k hk => Nat.le_trans (h.bounded k hk) hle⟩

/-- The next event, if it has a number, has the next one. -/
theorem Numbered.append {n : ℕ} {events : List StreamEvent} (h : Numbered n events)
    {event : StreamEvent} (hevent : ∀ m ∈ event.number, m = n + 1) :
    Numbered (n + 1) (events ++ [event]) := by
  cases hnumber : event.number with
  | none =>
    have hsame : (events ++ [event]).filterMap StreamEvent.number =
        events.filterMap StreamEvent.number := by
      rw [List.filterMap_append]
      simp [hnumber]
    refine ⟨?_, ?_⟩
    · rw [hsame]
      exact h.ascending
    · rw [hsame]
      exact (h.mono (Nat.le_succ n)).bounded
  | some m =>
    cases hevent m hnumber
    have hmore : (events ++ [event]).filterMap StreamEvent.number =
        events.filterMap StreamEvent.number ++ [n + 1] := by
      rw [List.filterMap_append]
      simp [hnumber]
    refine ⟨?_, ?_⟩
    · rw [hmore, List.pairwise_append]
      refine ⟨h.ascending, List.pairwise_singleton _ _, ?_⟩
      intro k hk b hb
      cases List.mem_singleton.mp hb
      exact Nat.lt_succ_of_le (h.bounded k hk)
    · rw [hmore]
      intro k hk
      rcases List.mem_append.mp hk with hk | hk
      · exact Nat.le_succ_of_le (h.bounded k hk)
      · exact Nat.le_of_eq (List.mem_singleton.mp hk)

/-! ## What is sent -/

/-- From `d` to `d'` events are sent to some of the clients of `S` that satisfy `T`. -/
structure Sends (S : List ℕ) (T : StreamEvent → Prop) (d d' : Delivery) : Prop where
  le : d.sequence ≤ d'.sequence
  others : ∀ c, c ∉ S → d'.received c = d.received c
  more : ∀ c, ∃ new, d'.received c = d.received c ++ new ∧ ∀ e ∈ new, T e
  numbered : ∀ c, Numbered d.sequence (d.received c) → Numbered d'.sequence (d'.received c)

variable {S S' : List ℕ} {T T' : StreamEvent → Prop} {d d' d'' : Delivery} {c : ℕ}
variable {throws : List ℕ} {event : ℕ → StreamEvent}

theorem Sends.refl (d : Delivery) : Sends S T d d where
  le := Nat.le_refl _
  others _ _ := rfl
  more _ := ⟨[], (List.append_nil _).symm, fun _ h => nomatch h⟩
  numbered _ h := h

theorem Sends.trans (h : Sends S T d d') (h' : Sends S T d' d'') : Sends S T d d'' where
  le := Nat.le_trans h.le h'.le
  others c hc := (h'.others c hc).trans (h.others c hc)
  more c := by
    obtain ⟨new, hnew, hT⟩ := h.more c
    obtain ⟨new', hnew', hT'⟩ := h'.more c
    refine ⟨new ++ new', ?_, ?_⟩
    · rw [hnew', hnew, List.append_assoc]
    · intro e he
      exact (List.mem_append.mp he).elim (hT e) (hT' e)
  numbered c hc := h'.numbered c (h.numbered c hc)

theorem Sends.mono (h : Sends S T d d') (hS : S ⊆ S') (hT : ∀ e, T e → T' e) :
    Sends S' T' d d' where
  le := h.le
  others c hc := h.others c fun hmem => hc (hS hmem)
  more c := by
    obtain ⟨new, hnew, hnewT⟩ := h.more c
    exact ⟨new, hnew, fun e he => hT e (hnewT e he)⟩
  numbered := h.numbered

/-- What counts is the counter and what has been received. -/
theorem Sends.of_seen {seen : List String} (h : Sends S T { d with seen := seen } d') :
    Sends S T d d' :=
  ⟨h.le, h.others, h.more, h.numbered⟩

theorem send_seen : (send throws c event d).2.seen = d.seen := by
  unfold send
  dsimp only
  split <;> rfl

theorem send_sends (hT : T (event (d.sequence + 1)))
    (hnumber : ∀ n, (event n).number = some n) :
    Sends [c] T d (send throws c event d).2 := by
  unfold send
  dsimp only
  split
  · exact ⟨Nat.le_succ _, fun _ _ => rfl, fun _ => ⟨[], (List.append_nil _).symm,
      fun _ h => nomatch h⟩, fun _ h => h.mono (Nat.le_succ _)⟩
  · refine ⟨Nat.le_succ _, ?_, ?_, ?_⟩
    · intro j hj
      exact Function.update_of_ne (fun h => hj (List.mem_singleton.mpr h)) ..
    · intro j
      by_cases hj : j = c
      · subst hj
        refine ⟨[event (d.sequence + 1)], Function.update_self .., ?_⟩
        intro e he
        cases List.mem_singleton.mp he
        exact hT
      · exact ⟨[], (Function.update_of_ne hj ..).trans (List.append_nil _).symm,
          fun _ h => nomatch h⟩
    · intro j h
      by_cases hj : j = c
      · subst hj
        dsimp only
        rw [Function.update_self]
        refine h.append fun m hm => ?_
        rw [hnumber] at hm
        exact (Option.some.inj hm).symm
      · dsimp only
        rw [Function.update_of_ne hj]
        exact h.mono (Nat.le_succ _)

/-- A loop whose bodies are steps of a preorder. -/
theorem foldl_rel {R : Delivery → Delivery → Prop} (hrefl : ∀ d, R d d)
    (htrans : ∀ {d d' d''}, R d d' → R d' d'' → R d d'') {f : Delivery → ℕ → Delivery}
    (hf : ∀ d, ∀ c ∈ S, R d (f d c)) (d : Delivery) : R d (S.foldl f d) :=
  List.foldlRecOn (motive := R d) S f (hrefl d) fun d' h c hc => htrans h (hf d' c hc)

/-- A loop over subscribers. -/
theorem Sends.foldl {f : Delivery → ℕ → Delivery}
    (hf : ∀ d, ∀ c ∈ S, Sends S T d (f d c)) (d : Delivery) : Sends S T d (S.foldl f d) :=
  foldl_rel .refl .trans hf d

/-! ## Eliminations -/

/-- The eliminations that events tell about. -/
def eliminations (events : List StreamEvent) : List String :=
  events.filterMap StreamEvent.elimination

/-- The eliminations of a snapshot that are new, in the order of the snapshot. -/
def unseen : List String → List Elimination → List String
  | _, [] => []
  | seen, e :: rest =>
    if e.id ∈ seen then unseen seen rest else e.id :: unseen (e.id :: seen) rest

theorem unseen_eq_nil {seen : List String} {es : List Elimination} :
    unseen seen es = [] ↔ ∀ e ∈ es, e.id ∈ seen := by
  induction es with
  | nil => simp [unseen]
  | cons e rest ih =>
    unfold unseen
    split
    · rename_i hseen
      simp [ih, hseen]
    · rename_i hnew
      simp [hnew]

theorem not_mem_unseen {seen : List String} {es : List Elimination} {id : String}
    (h : id ∈ seen) : id ∉ unseen seen es := by
  induction es generalizing seen with
  | nil => exact List.not_mem_nil
  | cons e rest ih =>
    unfold unseen
    split
    · exact ih h
    · rename_i hnew
      rintro (_ | ⟨_, hmem⟩)
      · exact hnew h
      · exact ih (List.mem_cons_of_mem _ h) hmem

/-- A new elimination is new once. -/
theorem count_unseen {seen : List String} {es : List Elimination} {id : String}
    (hnew : id ∉ seen) (hmem : id ∈ es.map (·.id)) : (unseen seen es).count id = 1 := by
  induction es generalizing seen with
  | nil => cases hmem
  | cons e rest ih =>
    unfold unseen
    split
    · rename_i hseen
      rcases List.mem_cons.mp hmem with rfl | hrest
      · exact absurd hseen hnew
      · exact ih hnew hrest
    · by_cases hid : id = e.id
      · subst hid
        rw [List.count_cons_self,
          List.count_eq_zero_of_not_mem (not_mem_unseen List.mem_cons_self)]
      · rw [List.count_cons_of_ne (fun h => hid h.symm)]
        refine ih (fun h => ?_) ((List.mem_cons.mp hmem).resolve_left hid)
        exact (List.mem_cons.mp h).elim hid hnew

theorem eliminations_append (events events' : List StreamEvent) :
    eliminations (events ++ events') = eliminations events ++ eliminations events' :=
  List.filterMap_append

/-- The eliminations that a client has received have been seen. -/
def Delivery.Knows (d : Delivery) (c : ℕ) : Prop :=
  ∀ id ∈ eliminations (d.received c), id ∈ d.seen

/-- What is sent about eliminations has been seen. -/
structure Marks (ids : List String) (d d' : Delivery) : Prop where
  kept : d.seen ⊆ d'.seen
  bounded : ∀ id ∈ d'.seen, id ∈ d.seen ∨ id ∈ ids
  knows : ∀ c, d.Knows c → d'.Knows c

theorem Marks.refl (ids : List String) (d : Delivery) : Marks ids d d :=
  ⟨fun _ => id, fun _ => .inl, fun _ => id⟩

theorem Marks.trans {ids : List String} (h : Marks ids d d') (h' : Marks ids d' d'') :
    Marks ids d d'' where
  kept := fun _ hmem => h'.kept (h.kept hmem)
  bounded id hmem := (h'.bounded id hmem).elim (h.bounded id) .inr
  knows c hc := h'.knows c (h.knows c hc)

/-- An event that is not about an elimination. -/
theorem eliminations_send (hevent : ∀ n, (event n).elimination = none) (j : ℕ) :
    eliminations ((send throws c event d).2.received j) = eliminations (d.received j) := by
  unfold send
  dsimp only
  split
  · rfl
  · by_cases hj : j = c
    · subst hj
      dsimp only
      rw [Function.update_self, eliminations_append]
      simp [eliminations, hevent]
    · dsimp only
      rw [Function.update_of_ne hj]

/-- The event about an elimination, which has been marked. -/
theorem send_elimination (e : Elimination) (hmarked : e.id ∈ d.seen) (j : ℕ) (hj : d.Knows j) :
    (send throws c (.playerEliminated · e) d).2.Knows j := by
  unfold send
  dsimp only
  split
  · exact hj
  · intro id hid
    by_cases hjc : j = c
    · subst hjc
      dsimp only at hid
      rw [Function.update_self, eliminations_append] at hid
      rcases List.mem_append.mp hid with hid | hid
      · exact hj id hid
      · cases List.mem_singleton.mp hid
        exact hmarked
    · dsimp only at hid
      rw [Function.update_of_ne hjc] at hid
      exact hj id hid

theorem sendEliminations_sends (hT : ∀ n e, T (.playerEliminated n e)) (es : List Elimination)
    (d : Delivery) : Sends [c] T d (sendEliminations throws c es d).2 := by
  induction es generalizing d with
  | nil => exact .refl d
  | cons e rest ih =>
    unfold sendEliminations
    split
    · exact ih d
    · have hsend : Sends [c] T d
          (send throws c (.playerEliminated · e) { d with seen := e.id :: d.seen }).2 :=
        .of_seen (send_sends (hT _ e) fun _ => rfl)
      dsimp only
      split
      · exact hsend.trans (ih _)
      · exact hsend

theorem sendEliminations_marks (es : List Elimination) (d : Delivery) :
    Marks (es.map (·.id)) d (sendEliminations throws c es d).2 := by
  have hall : ∀ (l : List Elimination) (d : Delivery), (∀ e ∈ l, e ∈ es) →
      Marks (es.map (·.id)) d (sendEliminations throws c l d).2 := by
    intro l
    induction l with
    | nil => exact fun d _ => .refl _ d
    | cons e rest ih =>
      intro d hl
      unfold sendEliminations
      split
      · exact ih d fun e' he' => hl e' (List.mem_cons_of_mem _ he')
      · have hsend : Marks (es.map (·.id)) d
            (send throws c (.playerEliminated · e) { d with seen := e.id :: d.seen }).2 := by
          refine ⟨?_, ?_, ?_⟩
          · rw [send_seen]
            exact List.subset_cons_self _ _
          · rw [send_seen]
            rintro id (_ | ⟨_, hmem⟩)
            · exact .inr (List.mem_map_of_mem (hl e List.mem_cons_self))
            · exact .inl hmem
          · intro j hj
            exact send_elimination e List.mem_cons_self j fun id hid =>
              List.mem_cons_of_mem _ (hj id hid)
        dsimp only
        split
        · exact hsend.trans (ih _ fun e' he' => hl e' (List.mem_cons_of_mem _ he'))
        · exact hsend
  exact hall es d fun _ h => h

/-- Nothing is new. -/
theorem sendEliminations_of_seen {es : List Elimination} (h : ∀ e ∈ es, e.id ∈ d.seen) :
    sendEliminations throws c es d = (true, d) := by
  induction es with
  | nil => rfl
  | cons e rest ih =>
    unfold sendEliminations
    rw [if_pos (h e List.mem_cons_self)]
    exact ih fun e' he' => h e' (List.mem_cons_of_mem _ he')

/-- The calls do not throw: all that is new is sent, and marked. -/
theorem sendEliminations_of_sent {es : List Elimination}
    (h : ∀ n ∈ throws, n ≤ d.sequence ∨ d.sequence + (unseen d.seen es).length < n) :
    ∃ d', sendEliminations throws c es d = (true, d') ∧
      eliminations (d'.received c) = eliminations (d.received c) ++ unseen d.seen es ∧
      d.seen ⊆ d'.seen ∧ ∀ e ∈ es, e.id ∈ d'.seen := by
  induction es generalizing d with
  | nil => exact ⟨d, rfl, (List.append_nil _).symm, fun _ => id, fun _ he => nomatch he⟩
  | cons e rest ih =>
    unfold sendEliminations unseen
    unfold unseen at h
    by_cases hseen : e.id ∈ d.seen
    · rw [if_pos hseen] at h
      rw [if_pos hseen, if_pos hseen]
      obtain ⟨d', hsent, hreceived, hkept, hall⟩ := ih h
      refine ⟨d', hsent, hreceived, hkept, fun e' he' => ?_⟩
      rcases List.mem_cons.mp he' with rfl | he'
      · exact hkept hseen
      · exact hall e' he'
    · rw [if_neg hseen, List.length_cons] at h
      rw [if_neg hseen, if_neg hseen]
      have hnumber : d.sequence + 1 ∉ throws := fun hmem => by
        rcases h _ hmem with hle | hlt
        · omega
        · omega
      have hsend : send throws c (.playerEliminated · e) { d with seen := e.id :: d.seen } =
          (true, ⟨d.sequence + 1, e.id :: d.seen, Function.update d.received c
            (d.received c ++ [.playerEliminated (d.sequence + 1) e])⟩) := if_neg hnumber
      rw [hsend]
      obtain ⟨d', hsent, hreceived, hkept, hall⟩ := ih (d := ⟨d.sequence + 1, e.id :: d.seen,
        Function.update d.received c
          (d.received c ++ [.playerEliminated (d.sequence + 1) e])⟩) fun n hn => by
        rcases h n hn with hle | hlt
        · exact .inl (Nat.le_succ_of_le hle)
        · exact .inr (by dsimp only; omega)
      refine ⟨d', hsent, ?_, fun id hid => hkept (List.mem_cons_of_mem _ hid), fun e' he' => ?_⟩
      · rw [hreceived]
        dsimp only
        rw [Function.update_self, eliminations_append, List.append_assoc]
        rfl
      · rcases List.mem_cons.mp he' with rfl | he'
        · exact hkept List.mem_cons_self
        · exact hall e' he'

end InverseArena.Backend.Stream
