import InverseArena.Backend.Caching.Middleware

/-!
# When the cache is transparent

`cacheMiddleware` stores the body of any answer, whatever its status, and writes it after
the handler has read, possibly after an invalidation of the key.

Results:
* `Sound.step`: what holds of Redis, of the requests under way and of the responses sent,
  as long as the handlers answer with 200 and no invalidation overtakes a request.
* `Exposed.run`: a stored entry that is not sound is served to the next request.
* `caching_iff`: the responses are transparent in the runs whose steps all meet the
  condition, and after a step that does not they need not be.
-/

namespace InverseArena.Backend.Caching

open Transition

/-! ## The condition -/

/-- A reply that may be cached: the middleware serves it with status 200, and serves no
    `null`. -/
def Reply.Cacheable (reply : Reply) : Prop := reply.status = 200 ∨ reply.body.json = .null

/-- No answer is between its computation and the end of its write, or of its serving. -/
def Phase.Settled : Phase → Prop
  | .looking | .handling | .finished => True
  | .found _ _ | .answering _ => False
  | .storing source => source.reply.body.json = .null

/-- What is asked of a step: handlers answer with 200, and an invalidation completes when the
    requests that it concerns are settled and no key but that of the stats is cached that it
    concerns. -/
def Step.Condition (concerns : Concern) (s : State) : Step → Prop
  | .compute _ outcome => outcome.reply.Cacheable
  | .invalidateArenaStats arenaId true =>
    (∀ q ∈ s.requests, concerns arenaId q.1 = true → q.2.Settled) ∧
      ∀ key entry, s.store key = some entry → concerns arenaId key = true →
        key ≠ arenaStats arenaId → entry.source.reply.body.json = .null
  | _ => True

/-- The reply to an error is not to be cached, unless the error itself says 200. -/
theorem not_cacheable_throws {err : Thrown} (h : err.status.or err.statusCode ≠ some 200) :
    ¬ (Outcome.throws err).reply.Cacheable := by
  rintro (hstatus | hnull)
  · rw [Outcome.reply, errorHandler_status] at hstatus
    split_ifs at hstatus
    · cases hstatus
    · cases hcode : err.status.or err.statusCode with
      | none =>
        rw [hcode] at hstatus
        cases hstatus
      | some status =>
        rw [hcode] at hstatus h
        exact h (congrArg some hstatus)
  · exact errorHandler_ne_null err hnull

/-! ## The invariant -/

/-- A reply that may be stored: it was produced for the key, and if it can be served at all,
    it has status 200 and is as fresh as can be. -/
def State.Storable (s : State) (key : String) (source : Produced) : Prop :=
  (key, source) ∈ s.produced ∧ (source.reply.body.json = .null ∨
    source.reply.status = 200 ∧ source.epoch = s.epoch key)

/-- What holds of the phase of a request. -/
def State.SoundPhase (s : State) (key : String) : Phase → Prop
  | .looking | .handling | .finished => True
  | .found value source => (key, source) ∈ s.produced ∧ source.reply.status = 200 ∧
      value = source.reply.body.json ∧ source.epoch = s.epoch key
  | .answering source => (key, source) ∈ s.produced ∧ source.reply.Cacheable ∧
      source.epoch = s.epoch key
  | .storing source => s.Storable key source

/-- The responses so far are transparent, and those to come can be. -/
structure Sound (s : State) : Prop where
  served : s.Transparent
  store : ∀ key entry, s.store key = some entry →
    entry.text = entry.source.reply.body.json.stringify ∧ s.Storable key entry.source
  requests : ∀ q ∈ s.requests, s.SoundPhase q.1 q.2

variable {concerns : Concern} {s u : State} {a : Step} {key : String} {phase : Phase}
  {source : Produced} {value : Json} {entry : Entry} {r : ℕ} {q : String × Phase}

/-! ## Reading back -/

/-- A body is read back from its text, unless it is `null`. -/
theorem get_stringify (body : Body) : get (some body.json.stringify) =
    match body.json with
    | .null => none
    | value => some value := by
  have hparse := Json.parse_stringify body.writable.readable
  have hne : body.json.stringify ≠ [] := by
    intro hnil
    rw [hnil] at hparse
    cases hparse
  unfold get
  cases htext : body.json.stringify with
  | nil => exact absurd htext hne
  | cons c cs =>
    rw [htext] at hparse
    dsimp only
    rw [hparse]
    cases body.json <;> rfl

theorem get_stringify_eq_some {body : Body} :
    get (some body.json.stringify) = some value ↔ value = body.json ∧ body.json ≠ .null := by
  rw [get_stringify]
  cases body.json <;> simp [eq_comm]

theorem lookup_eq_some (hs : Sound s) : s.lookup key = some (value, source) ↔
    ∃ entry, s.store key = some entry ∧ entry.source = source ∧
      value = source.reply.body.json ∧ source.reply.body.json ≠ .null := by
  simp only [State.lookup, Option.bind_eq_bind, Option.bind_eq_some_iff, Option.pure_def,
    Option.some.injEq, Prod.mk.injEq]
  constructor
  · rintro ⟨entry, hentry, value', hget, rfl, rfl⟩
    rw [(hs.store key entry hentry).1, get_stringify_eq_some] at hget
    exact ⟨entry, hentry, rfl, hget⟩
  · rintro ⟨entry, hentry, rfl, rfl, hne⟩
    refine ⟨entry, hentry, _, ?_, rfl, rfl⟩
    rw [(hs.store key entry hentry).1, get_stringify_eq_some]
    exact ⟨rfl, hne⟩

/-! ## Changes that keep what is known -/

theorem State.Storable.mono (h : s.Storable key source)
    (hproduced : ∀ x ∈ s.produced, x ∈ u.produced) (hepoch : u.epoch key = s.epoch key) :
    u.Storable key source := by
  refine ⟨hproduced _ h.1, ?_⟩
  rw [hepoch]
  exact h.2

theorem State.SoundPhase.mono (h : s.SoundPhase key phase)
    (hproduced : ∀ x ∈ s.produced, x ∈ u.produced) (hepoch : u.epoch key = s.epoch key) :
    u.SoundPhase key phase := by
  cases phase with
  | looking => trivial
  | handling => trivial
  | finished => trivial
  | found value source =>
    obtain ⟨hp, hstatus, hvalue, hfresh⟩ := h
    exact ⟨hproduced _ hp, hstatus, hvalue, hfresh.trans hepoch.symm⟩
  | answering source =>
    obtain ⟨hp, hreply, hfresh⟩ := h
    exact ⟨hproduced _ hp, hreply, hfresh.trans hepoch.symm⟩
  | storing source => exact State.Storable.mono h hproduced hepoch

/-- A settled request stays sound, whatever is invalidated. -/
theorem State.SoundPhase.of_settled (h : s.SoundPhase key phase) (hsettled : phase.Settled)
    (hproduced : ∀ x ∈ s.produced, x ∈ u.produced) : u.SoundPhase key phase := by
  cases phase with
  | looking => trivial
  | handling => trivial
  | finished => trivial
  | found value source => exact hsettled.elim
  | answering source => exact hsettled.elim
  | storing source => exact ⟨hproduced _ h.1, .inl hsettled⟩

theorem State.Transparent.mono (h : s.Transparent)
    (hproduced : ∀ x ∈ s.produced, x ∈ u.produced) (hserved : u.served = s.served) :
    u.Transparent := by
  intro v hv
  rw [hserved] at hv
  obtain ⟨hp, hstatus, hbody, hfresh⟩ := h v hv
  exact ⟨hproduced _ hp, hstatus, hbody, hfresh⟩

/-- A request goes on to a sound phase. -/
theorem Sound.move (hs : Sound s) (hphase : s.SoundPhase key phase) :
    Sound (s.move r key phase) where
  served := hs.served.mono (fun _ h => h) rfl
  store := hs.store
  requests q hq := by
    rcases List.mem_or_eq_of_mem_set hq with hold | rfl
    · exact (hs.requests q hold).mono (fun _ h => h) rfl
    · exact hphase.mono (fun _ h => h) rfl

/-- A response is sent. -/
theorem Sound.serve (hs : Sound s) {v : Served} (hv : v.Transparent s) :
    Sound { s with served := v :: s.served } where
  served := by
    rintro w (_ | ⟨_, hw⟩)
    · exact ⟨hv.produced, hv.status, hv.body, hv.fresh⟩
    · have hw := hs.served w hw
      exact ⟨hw.produced, hw.status, hw.body, hw.fresh⟩
  store := hs.store
  requests q hq := (hs.requests q hq).mono (fun _ h => h) rfl

/-- A handler produces a reply. -/
theorem Sound.produce (hs : Sound s) (x : String × Produced) :
    Sound { s with produced := x :: s.produced } where
  served := hs.served.mono (fun _ h => List.mem_cons_of_mem _ h) rfl
  store key entry h := by
    obtain ⟨htext, hstorable⟩ := hs.store key entry h
    exact ⟨htext, hstorable.mono (fun _ h => List.mem_cons_of_mem _ h) rfl⟩
  requests q hq := (hs.requests q hq).mono (fun _ h => List.mem_cons_of_mem _ h) rfl

/-- An entry is written, or goes. -/
theorem Sound.update (hs : Sound s) {entry : Option Entry}
    (hentry : ∀ e ∈ entry, e.text = e.source.reply.body.json.stringify ∧ s.Storable key e.source) :
    Sound { s with store := Function.update s.store key entry } where
  served := hs.served.mono (fun _ h => h) rfl
  store key' e h := by
    dsimp only at h
    by_cases hkey : key' = key
    · subst hkey
      rw [Function.update_self] at h
      exact ⟨(hentry e h).1, (hentry e h).2.mono (fun _ h => h) rfl⟩
    · rw [Function.update_of_ne hkey] at h
      exact ⟨(hs.store key' e h).1, (hs.store key' e h).2.mono (fun _ h => h) rfl⟩
  requests q hq := (hs.requests q hq).mono (fun _ h => h) rfl

/-- An invalidation completes that meets its condition. -/
theorem Sound.invalidate (hs : Sound s) {arenaId : String}
    (hcond : (Step.invalidateArenaStats arenaId true).Condition concerns s)
    (hu : (Step.invalidateArenaStats arenaId true).Leads concerns s u) : Sound u := by
  cases hu
  obtain ⟨hsettled, hcached⟩ := hcond
  have hepoch : ∀ key, ¬ concerns arenaId key = true →
      (if concerns arenaId key then s.epoch key + 1 else s.epoch key) = s.epoch key :=
    fun key h => if_neg h
  refine ⟨hs.served.mono (fun _ h => h) rfl, fun key e h => ?_, fun q hq => ?_⟩
  · dsimp only at h
    by_cases hkey : key = arenaStats arenaId
    · subst hkey
      rw [Function.update_self] at h
      cases h
    · rw [Function.update_of_ne hkey] at h
      obtain ⟨htext, hstorable⟩ := hs.store key e h
      refine ⟨htext, ?_⟩
      by_cases hc : concerns arenaId key = true
      · exact ⟨hstorable.1, .inl (hcached key e h hc hkey)⟩
      · exact hstorable.mono (fun _ h => h) (hepoch key hc)
  · have hold := hs.requests q hq
    by_cases hc : concerns arenaId q.1 = true
    · exact hold.of_settled (hsettled q hq hc) fun _ h => h
    · exact hold.mono (fun _ h => h) (hepoch q.1 hc)

/-! ## Runs -/

theorem sound_initial : Sound .initial where
  served := by
    rintro v ⟨⟩
  store := by
    rintro key entry ⟨⟩
  requests := by
    rintro q ⟨⟩

/-- Each step that meets its condition keeps the invariant. -/
theorem Sound.step (hs : Sound s) (hcond : a.Condition concerns s) (h : a.Leads concerns s u) :
    Sound u := by
  unfold Step.Leads at h
  cases a with
  | arrive key =>
    cases h
    refine ⟨hs.served.mono (fun _ h => h) rfl, hs.store, fun q hq => ?_⟩
    rcases List.mem_append.mp hq with hold | hnew
    · exact (hs.requests q hold).mono (fun _ h => h) rfl
    · rw [List.mem_singleton.mp hnew]
      trivial
  | read r reached =>
    simp only [Step.next] at h
    split at h
    · split at h
      · rename_i value source hlookup
        cases h
        -- what is found is as sound as the entry that it is read from
        cases reached with
        | false => cases hlookup
        | true =>
          obtain ⟨entry, hentry, rfl, hvalue, hne⟩ := (lookup_eq_some hs).mp hlookup
          obtain ⟨hp, hstorable⟩ := (hs.store _ entry hentry).2
          obtain ⟨hstatus, hfresh⟩ := hstorable.resolve_left hne
          exact hs.move ⟨hp, hstatus, hvalue, hfresh⟩
      · cases h
        exact hs.move trivial
    · cases h
  | hit r =>
    simp only [Step.next] at h
    split at h
    · rename_i key value source hr
      cases h
      obtain ⟨hp, hstatus, hvalue, hfresh⟩ := hs.requests _ (List.mem_of_getElem? hr)
      exact (hs.serve ⟨hp, hstatus.symm, hvalue, hfresh⟩).move trivial
    · cases h
  | compute r outcome =>
    simp only [Step.next] at h
    split at h
    · cases h
      exact (hs.produce _).move ⟨List.mem_cons_self, hcond, rfl⟩
    · cases h
  | answer r =>
    simp only [Step.next] at h
    split at h
    · rename_i key source hr
      cases h
      obtain ⟨hp, hreply, hfresh⟩ := hs.requests _ (List.mem_of_getElem? hr)
      refine (hs.serve ⟨hp, rfl, rfl, hfresh⟩).move ⟨hp, ?_⟩
      exact hreply.elim (fun h => .inr ⟨h, hfresh⟩) .inl
    · cases h
  | write r reached =>
    simp only [Step.next] at h
    split at h
    · rename_i key source hr
      have hstorable : s.Storable key source := hs.requests _ (List.mem_of_getElem? hr)
      split at h
      · cases h
        refine (hs.update ?_).move trivial
        rintro e ⟨⟩
        exact ⟨rfl, hstorable⟩
      · cases h
        exact hs.move trivial
    · cases h
  | expire key =>
    cases h
    exact hs.update fun e he => nomatch he
  | invalidateArenaStats arenaId reached =>
    cases reached with
    | false =>
      cases h
      exact hs
    | true => exact hs.invalidate hcond h

theorem sound_of_run {tr : List (State × Step)} (hrun : Run (Step.Leads concerns) .initial tr s)
    (hc : ∀ e ∈ tr, e.2.Condition concerns e.1) : Sound s :=
  hrun.invariant_of_forall (fun _ _ _ hs hcond h => hs.step hcond h) hc sound_initial

/-! ## Answers that are exposed -/

variable (concerns) in
/-- Steps that meet the condition lead to a response that is not transparent. -/
def Exposes (s : State) : Prop :=
  ∃ tr v, Run (Step.Leads concerns) s tr v ∧ (∀ e ∈ tr, e.2.Condition concerns e.1) ∧
    ¬ v.Transparent

theorem Exposes.of_step (h : a.Leads concerns s u) (hcond : a.Condition concerns s)
    (hu : Exposes concerns u) : Exposes concerns s := by
  obtain ⟨tr, v, hrun, hc, hv⟩ := hu
  refine ⟨tr ++ [(s, a)], v, (Run.single h).append hrun, ?_, hv⟩
  rw [List.forall_mem_append]
  exact ⟨hc, List.forall_mem_singleton.mpr hcond⟩

/-- A reply that is served from the cache with another status, or too late. -/
def State.Misserved (s : State) (key : String) (source : Produced) : Prop :=
  source.reply.status ≠ 200 ∨ source.epoch ≠ s.epoch key

theorem requests_move (hr : s.requests[r]? = some q) :
    (s.move r key phase).requests[r]? = some (key, phase) := by
  obtain ⟨hlt, -⟩ := List.getElem?_eq_some_iff.mp hr
  exact List.getElem?_set_self hlt

theorem exposes_of_found (hr : s.requests[r]? = some (key, .found value source))
    (hbad : s.Misserved key source) : Exposes concerns s := by
  refine .of_step (a := .hit r) (by simp only [Step.Leads, Step.next, hr]; rfl) trivial
    ⟨[], _, .nil, by simp, fun hv => ?_⟩
  obtain ⟨-, hstatus, -, hfresh⟩ := hv _ List.mem_cons_self
  exact hbad.elim (fun h => h hstatus.symm) fun h => h hfresh

theorem exposes_of_looking (hr : s.requests[r]? = some (key, .looking))
    (hlookup : s.lookup key = some (value, source)) (hbad : s.Misserved key source) :
    Exposes concerns s := by
  have hread : (Step.read r true).Leads concerns s (s.move r key (.found value source)) := by
    simp only [Step.Leads, Step.next, hr, if_true, hlookup]
  exact .of_step hread trivial (exposes_of_found (requests_move hr) hbad)

/-- The next request of the key is served a stored entry. -/
theorem exposes_of_entry (hentry : s.store key = some entry)
    (htext : entry.text = entry.source.reply.body.json.stringify)
    (hne : entry.source.reply.body.json ≠ .null) (hbad : s.Misserved key entry.source) :
    Exposes concerns s := by
  have hlookup : s.lookup key = some (entry.source.reply.body.json, entry.source) := by
    have hget := get_stringify_eq_some.mpr ⟨rfl, hne⟩
    rw [← htext] at hget
    rw [State.lookup, hentry]
    show (get (some entry.text)).bind _ = _
    rw [hget]
    rfl
  exact .of_step (a := .arrive key) rfl trivial
    (exposes_of_looking List.getElem?_concat_length hlookup hbad)

theorem exposes_of_storing (hr : s.requests[r]? = some (key, .storing source))
    (hne : source.reply.body.json ≠ .null) (hbad : s.Misserved key source) :
    Exposes concerns s := by
  have hwrite : (Step.write r true).Leads concerns s
      { s.move r key .finished with
        store := Function.update s.store key
          (some ⟨source.reply.body.json.stringify, source⟩) } := by
    simp only [Step.Leads, Step.next, hr, if_true]
  exact .of_step hwrite trivial
    (exposes_of_entry (Function.update_self key _ s.store) rfl hne hbad)

/-- An answer that is too late is one itself, and one with another status is stored. -/
theorem exposes_of_answering (hr : s.requests[r]? = some (key, .answering source))
    (hne : source.reply.body.json ≠ .null ∨ source.epoch ≠ s.epoch key)
    (hbad : s.Misserved key source) : Exposes concerns s := by
  have hanswer : (Step.answer r).Leads concerns s
      { s.move r key (.storing source) with
        served := ⟨key, false, source.reply.status, source.reply.body.json, source,
          s.epoch key⟩ :: s.served } := by
    simp only [Step.Leads, Step.next, hr]
  refine .of_step hanswer trivial ?_
  by_cases hfresh : source.epoch = s.epoch key
  · exact exposes_of_storing (requests_move hr) (hne.resolve_right fun h => h hfresh) hbad
  · exact ⟨[], _, .nil, by simp, fun hv => hfresh (hv _ List.mem_cons_self).fresh⟩

/-- A step that does not meet the condition leads on to a response that is not
    transparent. -/
theorem Sound.exposes (hs : Sound s) (h : a.Leads concerns s u)
    (hcond : ¬ a.Condition concerns s) : Exposes concerns u := by
  unfold Step.Leads at h
  cases a with
  | compute r outcome =>
    obtain ⟨hstatus, hne⟩ := not_or.mp hcond
    simp only [Step.next] at h
    split at h
    · rename_i hr
      cases h
      exact exposes_of_answering (requests_move hr) (.inl hne) (.inl hstatus)
    · cases h
  | invalidateArenaStats arenaId reached =>
    cases reached with
    | false => exact absurd trivial hcond
    | true =>
      cases h
      -- what an invalidation concerns is stale after it
      have hstale : ∀ key (source : Produced), concerns arenaId key = true →
          source.epoch = s.epoch key →
          source.epoch ≠ if concerns arenaId key then s.epoch key + 1 else s.epoch key := by
        intro key source hc hfresh
        rw [if_pos hc, hfresh]
        exact (Nat.succ_ne_self _).symm
      rcases not_and_or.mp hcond with hrequests | hstore
      · simp only [not_forall] at hrequests
        obtain ⟨⟨key, phase⟩, hq, hc, hphase⟩ := hrequests
        obtain ⟨r, hr⟩ := List.mem_iff_getElem?.mp hq
        have hsound := hs.requests _ hq
        cases phase with
        | looking => exact absurd trivial hphase
        | handling => exact absurd trivial hphase
        | finished => exact absurd trivial hphase
        | found value source =>
          exact exposes_of_found hr (.inr (hstale key source hc hsound.2.2.2))
        | answering source =>
          have hlate := hstale key source hc hsound.2.2
          exact exposes_of_answering hr (.inr hlate) (.inr hlate)
        | storing source =>
          have hfresh := (hsound.2.resolve_left hphase).2
          exact exposes_of_storing hr hphase (.inr (hstale key source hc hfresh))
      · simp only [not_forall] at hstore
        obtain ⟨key, entry, hentry, hc, hkey, hne⟩ := hstore
        obtain ⟨htext, hstorable⟩ := hs.store key entry hentry
        have hfresh := (hstorable.2.resolve_left hne).2
        have hkept : Function.update s.store (arenaStats arenaId) none key = some entry := by
          rw [Function.update_of_ne hkey, hentry]
        exact exposes_of_entry hkept htext hne (.inr (hstale key _ hc hfresh))
  | arrive key => exact absurd trivial hcond
  | read r reached => exact absurd trivial hcond
  | hit r => exact absurd trivial hcond
  | answer r => exact absurd trivial hcond
  | write r reached => exact absurd trivial hcond
  | expire key => exact absurd trivial hcond

/-- In the runs whose steps all meet the condition every response is transparent; and of
    the steps that may follow, exactly those that meet it keep this so. -/
theorem caching_iff {tr : List (State × Step)}
    (hrun : Run (Step.Leads concerns) .initial tr s)
    (hc : ∀ e ∈ tr, e.2.Condition concerns e.1) :
    s.Transparent ∧ ∀ (a : Step) u, a.Leads concerns s u →
      (a.Condition concerns s ↔ ∀ tr' v, Run (Step.Leads concerns) u tr' v →
        (∀ e ∈ tr', e.2.Condition concerns e.1) → v.Transparent) := by
  have hs := sound_of_run hrun hc
  refine ⟨hs.served, fun a u h => ⟨fun hcond tr' v hrun' hc' => ?_, fun hall => ?_⟩⟩
  · have hu := hs.step hcond h
    exact (hrun'.invariant_of_forall (fun _ _ _ hs hcond h => hs.step hcond h) hc' hu).served
  · by_contra hcond
    obtain ⟨tr', v, hrun', hc', hv⟩ := hs.exposes h hcond
    exact hv (hall tr' v hrun' hc')

/-! ## Sample runs -/

/-- An invalidation concerns the stats of its arena only. -/
def ofStats : Concern := fun arenaId key => key = arenaStats arenaId

/-- Executes steps from the start. -/
theorem exists_state (steps : List Step) {P : List (State × Step) → State → Prop}
    (h : ∃ r ∈ replay (fun a s => (a.next ofStats s).map fun u => (a, u)) steps [] .initial,
      P r.1 r.2) :
    ∃ tr s, Run (Step.Leads ofStats) .initial tr s ∧ P tr s := by
  refine exists_run_of_replay (fun m s a t hm => ?_) h
  obtain ⟨u, hu, heq⟩ := Option.map_eq_some_iff.mp hm
  cases heq
  exact hu

/-- A request that finds nothing in the cache, up to its answer and the write of it. -/
def missed (r : ℕ) (key : String) (outcome : Outcome) : List Step :=
  [.arrive key, .read r true, .compute r outcome, .answer r, .write r true]

/-- A request that finds its answer in the cache. -/
def cached (r : ℕ) (key : String) : List Step := [.arrive key, .read r true, .hit r]

/-- The stats of a sample arena. -/
def sampleStats (status : String) : Outcome := .json ⟨200,
  { json := .object [field "arenaId" (string "a"), field "status" (string status)]
    writable := by simp [Json.Writable, field, string, Json.tokens, Json.fieldTokens] }⟩

/-- What the stats of an unknown arena throw. -/
def unknownArena : Outcome :=
  .throws (apiError 404 "ARENA_NOT_FOUND" "Arena with ID a not found")

/-- What is compared of a response: where it comes from, its status and its age. -/
def Served.summary (v : Served) : Bool × ℕ × ℕ × ℕ × ℕ :=
  (v.hit, v.status, v.source.reply.status, v.source.epoch, v.epoch)

/-- A sufficient condition that can be computed. -/
def Step.fine (s : State) : Step → Bool
  | .compute _ outcome => outcome.reply.status = 200
  | .invalidateArenaStats _ true => s.requests.all fun q =>
    match q.2 with
    | .looking | .handling | .finished => true
    | _ => false
  | _ => true

theorem condition_of_fine (h : a.fine s = true) : a.Condition ofStats s := by
  cases a with
  | compute r outcome => exact .inl (of_decide_eq_true h)
  | invalidateArenaStats arenaId reached =>
    cases reached with
    | false => trivial
    | true =>
      refine ⟨fun q hq _ => ?_, fun key _ _ hc hne => absurd (of_decide_eq_true hc) hne⟩
      have hphase := List.all_eq_true.mp h q hq
      cases hq2 : q.2 with
      | looking => trivial
      | handling => trivial
      | finished => trivial
      | found value source => simp [hq2] at hphase
      | answering source => simp [hq2] at hphase
      | storing source => simp [hq2] at hphase
  | arrive key => trivial
  | read r reached => trivial
  | hit r => trivial
  | answer r => trivial
  | write r reached => trivial
  | expire key => trivial

/-- An invalidation between two requests: the second one is answered anew, and the third
    one from the cache. -/
theorem caching_iff_invalidated : ∃ tr s, Run (Step.Leads ofStats) .initial tr s ∧
    s.served.map (·.summary) =
      [(true, 200, 200, 1, 1), (false, 200, 200, 1, 1), (false, 200, 200, 0, 0)] ∧
    s.Transparent := by
  obtain ⟨tr, s, hrun, hserved, hfine⟩ : ∃ tr s, Run (Step.Leads ofStats) .initial tr s ∧
      s.served.map (·.summary) =
        [(true, 200, 200, 1, 1), (false, 200, 200, 1, 1), (false, 200, 200, 0, 0)] ∧
      ∀ e ∈ tr, e.2.fine e.1 = true :=
    exists_state (missed 0 "arena:stats:a" (sampleStats "ACTIVE") ++
      [.invalidateArenaStats "a" true] ++ missed 1 "arena:stats:a" (sampleStats "FINISHED") ++
      cached 2 "arena:stats:a") (by decide +kernel)
  exact ⟨tr, s, hrun, hserved, (caching_iff hrun fun e he => condition_of_fine (hfine e he)).1⟩

/-- The 404 of an unknown arena is served with status 200 to the next client, and stats that
    were read before an invalidation are served after it. -/
theorem not_caching_transparent :
    (∃ tr s, Run (Step.Leads ofStats) .initial tr s ∧
      s.served.map (·.summary) = [(true, 200, 404, 0, 0), (false, 404, 404, 0, 0)]) ∧
    (∃ tr s, Run (Step.Leads ofStats) .initial tr s ∧
      s.served.map (·.summary) = [(true, 200, 200, 0, 1), (false, 200, 200, 0, 1)]) ∧
    ¬ ∀ tr s, Run (Step.Leads ofStats) .initial tr s → s.Transparent := by
  have hstatus : ∃ tr s, Run (Step.Leads ofStats) .initial tr s ∧
      s.served.map (·.summary) = [(true, 200, 404, 0, 0), (false, 404, 404, 0, 0)] :=
    exists_state (missed 0 "arena:stats:a" unknownArena ++ cached 1 "arena:stats:a")
      (by decide +kernel)
  refine ⟨hstatus, ?_, fun hall => ?_⟩
  · exact exists_state ([.arrive "arena:stats:a", .read 0 true,
      .compute 0 (sampleStats "ACTIVE"), .invalidateArenaStats "a" true, .answer 0,
      .write 0 true] ++ cached 1 "arena:stats:a") (by decide +kernel)
  · obtain ⟨tr, s, hrun, hserved⟩ := hstatus
    cases hlist : s.served with
    | nil =>
      rw [hlist] at hserved
      cases hserved
    | cons v rest =>
      rw [hlist, List.map_cons] at hserved
      have hsummary := (List.cons.inj hserved).1
      simp only [Served.summary, Prod.mk.injEq] at hsummary
      have hsame := (hall tr s hrun v (hlist ▸ List.mem_cons_self)).status
      omega

end InverseArena.Backend.Caching
