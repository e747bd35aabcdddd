import InverseArena.Backend.Replay
import InverseArena.Backend.Unsent

/-!
# What a resolution records

`resolveRound` either stores what the chain has decided or leaves the database
alone: as the service is, it never gets further than the submission, and throws.

A service that could submit would compare the ids of the request with the addresses
of the active players on the chain. Ids are UUIDs, so none of them is ever such an
address, and every player of the request would be recorded as eliminated. The list
of active players is empty as well when it cannot be read.

Results:
* `records_chain`: a resolution that cannot be sent keeps the database true to the
  chain.
* `records_all`: a resolution that is committed records every player.
* `records_chain_iff`: exactly when what is recorded agrees with the chain.
-/

namespace InverseArena.Backend

open Async

variable {N H : Type}

/-- The wallet of the user with this id is among the players of the arena, and its
    state there is inactive. -/
def EliminatedOnChain (net : Network H) (w : Platform N H) (id : String) : Prop :=
  ∃ user ∈ w.db.users id, ∃ address ∈ w.arena.storage.loadAllPlayers,
    net.strkey address = user.walletAddress ∧
      (w.arena.storage.playerState address).active = false

instance (net : Network H) (w : Platform N H) (id : String) :
    Decidable (EliminatedOnChain net w id) :=
  inferInstanceAs (Decidable (∃ user ∈ w.db.users id, ∃ address ∈ w.arena.storage.loadAllPlayers,
    net.strkey address = user.walletAddress ∧
      (w.arena.storage.playerState address).active = false))

/-- The round is stored as RESOLVED with the eliminations of the chain. -/
def StoresChain (net : Network H) (input : RoundInput N) (w w' : Platform N H) : Prop :=
  ∃ eliminated, Resolves (fun _ _ => True) w.db w'.db input.roundId eliminated ∧
    ∀ id, id ∈ eliminated ↔ id ∈ input.allActivePlayerIds ∧ EliminatedOnChain net w' id

/-- A call of `resolveRound` from `w` to `w'` stores what the chain has decided, or
    throws and leaves the rows as they are. -/
def RecordsChain (net : Network H) (input : RoundInput N) (w w' : Platform N H)
    (r : Except RoundError (RoundResolution N)) : Prop :=
  StoresChain net input w w' ∨ ((∃ e, r = .error e) ∧ Database.SameRows w.db w'.db)

/-- The database has executed the commit of the call. -/
def Applied (rs : List (Reply (Answer N) RoundError)) : Prop :=
  ∃ reply ∈ rs, reply.effective = some .commit

/-! ## Stored resolutions -/

variable {E : String → List String → Prop} {d d' d'' : Database N} {roundId : String}
variable {eliminated eliminated' : List String}

theorem Resolves.weaken (h : Resolves E d d' roundId eliminated) :
    Resolves (fun _ _ => True) d d' roundId eliminated :=
  ⟨trivial, h.resolvable, h.rounds, h.users, h.eliminationLogs⟩

theorem Resolves.congr (h : Resolves E d d' roundId eliminated) (h' : Database.SameRows d' d'') :
    Resolves E d d'' roundId eliminated := by
  refine ⟨h.recordable, h.resolvable, ?_, h'.users.trans h.users,
    h'.eliminationLogs.trans h.eliminationLogs⟩
  rw [h'.rounds]
  exact h.rounds

theorem Resolves.of_sameRows (h' : Database.SameRows d d')
    (h : Resolves E d' d'' roundId eliminated) : Resolves E d d'' roundId eliminated := by
  obtain ⟨hrec, hres, hrounds, husers, hlogs⟩ := h
  rw [h'.rounds] at hres hrounds
  rw [h'.users] at husers
  rw [h'.eliminationLogs] at hlogs
  exact ⟨hrec, hres, hrounds, husers, hlogs⟩

theorem Resolves.unique (h : Resolves E d d' roundId eliminated)
    (h' : Resolves (fun _ _ => True) d d' roundId eliminated') : eliminated' = eliminated := by
  have hlogs : Backend.eliminationLogs roundId eliminated' =
      Backend.eliminationLogs roundId eliminated :=
    List.append_cancel_left (h'.eliminationLogs.symm.trans h.eliminationLogs)
  have hinj : Function.Injective fun userId : String =>
      (⟨roundId, userId, "ELIMINATED_BY_ROUND"⟩ : EliminationLog) := by
    intro a b hab
    cases hab
    rfl
  exact List.map_injective_iff.mpr hinj hlogs

/-- A resolution changes the round's row. -/
theorem Resolves.not_sameRows (h : Resolves E d d' roundId eliminated) :
    ¬ Database.SameRows d d' := by
  intro hsame
  obtain ⟨row, hrow, hstate⟩ := h.resolvable
  obtain ⟨row', metadata, resolution, hrounds, hresolved, -⟩ := h.rounds
  have heq : d'.rounds roundId = some row' := by rw [hrounds, Function.update_self]
  rw [hsame.rounds, hrow] at heq
  cases heq
  rw [hresolved] at hstate
  cases hstate

/-! ## The run of a call -/

variable {net : Network H} {w w' : Platform N H} {input : RoundInput N} {i : ℕ}
variable {rs : List (Reply (Answer N) RoundError)} {g : Place}

/-- The only round and eliminations that the call may record. -/
def All (input : RoundInput N) (roundId : String) (eliminated : List String) : Prop :=
  roundId = input.roundId ∧ eliminated = input.allActivePlayerIds

/-- The place of a resolution that has not been told of a commit. -/
def Place.uncommitted : Place → Bool
  | .closing => false
  | .committed => false
  | _ => true

/-- The call has not committed, or it has committed the elimination of everybody. -/
structure Progress (input : RoundInput N) (w : Platform N H) (i : ℕ)
    (rs : List (Reply (Answer N) RoundError)) (w' : Platform N H) (g : Place) : Prop where
  tidy : ∃ gs, gs i = some g ∧ Tidy (All input) w'.db gs
  rows : Applied rs ∧ (g = .committed ∨ g = .ended) ∧
      Resolves (All input) w.db w'.db input.roundId input.allActivePlayerIds ∨
    ¬ Applied rs ∧ g.uncommitted = true ∧ Database.SameRows w.db w'.db

theorem applied_append {reply : Reply (Answer N) RoundError} :
    Applied (rs ++ [reply]) ↔ Applied rs ∨ reply.effective = some .commit := by
  unfold Applied
  simp only [List.mem_append, List.mem_singleton, or_and_right, exists_or, exists_eq_left]

/-- A call that has committed or ended makes no further statement but a rollback. -/
theorem Place.next_ended {q : Request N} (a : Except RoundError (Answer N q))
    (ha : g.allows E q) (hg : g = .committed ∨ g = .ended) :
    g.next q a = .committed ∨ g.next q a = .ended := by
  cases q with
  | updateRound roundId state =>
    obtain ⟨rfl, -⟩ := ha
    simp at hg
  | beginTransaction =>
    obtain rfl : g = .outside := ha
    simp at hg
  | claimRound roundId state metadata =>
    obtain ⟨rfl, -⟩ := ha
    simp at hg
  | createLogs logs =>
    obtain ⟨roundId, eliminated, rfl, -⟩ := ha
    simp at hg
  | commit =>
    cases a with
    | ok _ => exact .inl rfl
    | error e => exact .inr rfl
  | rollback => exact .inr rfl
  | _ => exact hg

/-- Only an answered commit leads to `committed`. -/
theorem Place.next_uncommitted {q : Request N} (a : Except RoundError (Answer N q))
    (hcommit : q = .commit → ∀ u, a ≠ .ok u) (hg : g.uncommitted = true) :
    (g.next q a).uncommitted = true := by
  cases q with
  | beginTransaction =>
    cases a with
    | ok _ => rfl
    | error e => rfl
  | claimRound roundId state metadata =>
    cases a with
    | ok count =>
      show (if count = 0 then Place.failing else _).uncommitted = true
      split_ifs
      · rfl
      · rfl
    | error e => rfl
  | createLogs logs =>
    cases a with
    | ok _ =>
      cases g with
      | _ => rfl
    | error e => rfl
  | commit =>
    cases a with
    | ok u => exact absurd rfl (hcommit rfl u)
    | error e => rfl
  | rollback => rfl
  | _ => exact hg

theorem Progress.reply {reply : Reply (Answer N) RoundError} {w'' : Platform N H}
    (hp : Progress input w i rs w' g) (ha : g.allows (All input) reply.request)
    (hr : (platform net).Replies i w' reply w'') :
    Progress input w i (rs ++ [reply]) w'' (g.next reply.request reply.answer) := by
  obtain ⟨gs, hgs, ht⟩ := hp.tidy
  refine ⟨⟨_, Function.update_self .., ht.reply hgs ha hr⟩, ?_⟩
  have hrows := ht.rows hgs ha hr
  rw [applied_append]
  obtain ⟨happlied, hended, hres⟩ | ⟨hnot, hg, hsame⟩ := hp.rows
  · -- What is committed is not changed again.
    refine .inl ⟨.inl happlied, Place.next_ended _ ha hended, ?_⟩
    generalize heff : reply.effective = q at hrows
    cases hrows with
    | same _ _ hrows => exact hres.congr hrows
    | closes _ =>
      rw [Reply.request_of_effective heff] at ha
      obtain ⟨rfl, -⟩ := ha
      simp at hended
    | resolves _ =>
      rw [Reply.request_of_effective heff] at ha
      obtain ⟨_, rfl⟩ | ⟨_, _, rfl⟩ := ha
      · simp at hended
      · simp at hended
  · generalize heff : reply.effective = q at hrows
    cases hrows with
    | same _ hcommit hrows =>
      have hanswer : reply.request = .commit → ∀ u, reply.answer ≠ .ok u := by
        intro hq u hok
        rw [← heff, Reply.effective_of_answer hok, hq] at hcommit
        exact hcommit rfl
      refine .inr ⟨?_, Place.next_uncommitted _ hanswer hg, hsame.trans hrows⟩
      rintro (happlied | hq)
      · exact hnot happlied
      · exact hcommit hq
    | closes _ =>
      rw [Reply.request_of_effective heff] at ha
      obtain ⟨rfl, -⟩ := ha
      cases hg
    | @resolves roundId eliminated hres =>
      obtain ⟨rfl, rfl⟩ := hres.recordable
      refine .inl ⟨.inr rfl, ?_, hres.of_sameRows hsame⟩
      have hq := Reply.request_of_effective heff
      cases reply with
      | served q a =>
        cases heff
        exact .inl rfl
      | lost q a e =>
        cases heff
        exact .inr rfl
      | refused q e => cases heff

/-- A resolution that is committed records every player of the request, whatever
    the chain has decided; one that is not leaves the rows as they are, and
    throws. -/
theorem records_all [JsNumber N] {svc : Service} (hinput : RoundInputSchema input)
    (hnew : w.db.transactions i = none) (hlocks : w.db.LocksHeld)
    {r : Except RoundError (RoundResolution N)}
    (h : Exec (platform net) i (resolveRound svc input) w rs r w') :
    Applied rs ∧ Resolves (All input) w.db w'.db input.roundId input.allActivePlayerIds ∨
      ¬ Applied rs ∧ (∃ e, r = .error e) ∧ Database.SameRows w.db w'.db := by
  have hE : ∀ ids : List String, (∀ id ∈ ids, isStrkey id = true) →
      All input input.roundId (input.allActivePlayerIds.filter (· ∉ ids)) := by
    refine fun ids hids => ⟨rfl, List.filter_eq_self.mpr fun id hid => ?_⟩
    refine decide_eq_true fun hmem => ?_
    exact ne_of_isUuid_of_isStrkey (hinput.allActivePlayerIds id hid) (hids id hmem) rfl
  have hunapplied : ¬ Applied ([] : List (Reply (Answer N) RoundError)) := by
    rintro ⟨reply, hmem, -⟩
    cases hmem
  have hstart : Progress input w i [] w .outside := by
    refine ⟨⟨fun j => if j = i then some .outside else
      (w.db.transactions j).map fun _ => .ended, if_pos rfl, ?_, ?_, hlocks⟩,
      .inr ⟨hunapplied, rfl, .refl⟩⟩
    · intro j g tx hg htx
      by_cases hji : j = i
      · subst hji
        rw [hnew] at htx
        cases htx
      · rw [if_neg hji, htx] at hg
        cases hg
        exact trivial
    · intro j hj
      by_cases hji : j = i
      · rw [if_pos hji] at hj
        cases hj
      · rw [if_neg hji] at hj
        exact Option.map_eq_none_iff.mp hj
  obtain ⟨g, hp, hQ⟩ := h.follows (P := statements (All input))
    (J := fun rs w' g => Progress input w i rs w' g) (serves_expected net)
    (fun hp ha hr => hp.reply ha hr) (resolveRound_follows svc input hE) hstart
  obtain ⟨happlied, -, hres⟩ | ⟨hnot, hg, hsame⟩ := hp.rows
  · exact .inl ⟨happlied, hres⟩
  · refine .inr ⟨hnot, ?_, hsame⟩
    cases r with
    | error e => exact ⟨e, rfl⟩
    | ok a =>
      obtain rfl := hQ ⟨a, rfl⟩
      cases hg

/-- What `resolveRound` leaves in the database agrees with the chain exactly when
    its transaction is not committed, or all the players of the request have been
    eliminated on the chain. -/
theorem records_chain_iff [JsNumber N] {svc : Service} (hinput : RoundInputSchema input)
    (hnew : w.db.transactions i = none) (hlocks : w.db.LocksHeld)
    {r : Except RoundError (RoundResolution N)}
    (h : Exec (platform net) i (resolveRound svc input) w rs r w') :
    RecordsChain net input w w' r ↔
      ¬ Applied rs ∨ ∀ id ∈ input.allActivePlayerIds, EliminatedOnChain net w' id := by
  obtain ⟨happlied, hres⟩ | ⟨hnot, herror, hsame⟩ := records_all hinput hnew hlocks h
  · constructor
    · rintro (⟨eliminated, hstored, hiff⟩ | ⟨-, hsame⟩)
      · obtain rfl := hres.unique hstored
        exact .inr fun id hid => ((hiff id).mp hid).2
      · exact absurd hsame hres.not_sameRows
    · rintro (hnot | hall)
      · exact absurd happlied hnot
      · exact .inl ⟨_, hres.weaken, fun id => ⟨fun hid => ⟨hid, hall id hid⟩, And.left⟩⟩
  · exact iff_of_true (.inr ⟨herror, hsame⟩) (.inl hnot)

/-! ## The service as it is -/

/-- A resolution that cannot be sent throws and leaves the rows as they are, whatever
    its input, the players on the chain and the answers to its reads. -/
theorem records_chain [JsNumber N] {svc : Service} (hsend : Unsendable svc net)
    {r : Except RoundError (RoundResolution N)}
    (h : Exec (platform net) i (resolveRound svc input) w rs r w') :
    RecordsChain net input w w' r := by
  obtain ⟨hthrown, rfl⟩ := exec_of_unsendable hsend h
  exact .inr ⟨hthrown, .refl⟩

/-- The arena does not take the argument, and the sample resolution fails in its
    simulation. -/
theorem records_chain_sample : ∃ rs r w',
    Exec (platform sampleNet) 0 (resolveRound sampleService sampleInput) samplePlatform rs r w' ∧
      rs.length = 3 ∧ RecordsChain sampleNet sampleInput samplePlatform w' r := by
  obtain ⟨rs, r, w', hexec, hlength⟩ := (working sampleNet).exists_exec (.rejected "") 0
    (T := fun rs _ _ => rs.length = 3) (List.replicate 3 (some .prompt))
    (p := resolveRound sampleService sampleInput) (s := samplePlatform) (by decide +kernel)
  exact ⟨rs, r, w', hexec, hlength, records_chain (.inl rfl) hexec⟩

end InverseArena.Backend
