import InverseArena.Backend.Platform

/-!
# What the calls do to the round tables

Calls of the round service, in any order of their statements, change the
committed rows in two ways only: an update that closes a round, and the commit of
a resolution.

Results:
* `Tidy.reply`, `Tidy.abort`: each transaction in progress is the one of its call
  and holds the round it has claimed.
* `Tidy.rows`: what a reply does to the committed rows.
-/

namespace InverseArena.Backend

open Async

variable {N H : Type}

/-! ## What transactions in progress hold -/

/-- `tx` has claimed `roundId` as RESOLVED with these eliminations. -/
structure Claims (E : String → List String → Prop) (tx : Transaction N) (roundId : String)
    (eliminated : List String) : Prop where
  recordable : E roundId eliminated
  claimed : ∃ row metadata resolution, tx.claimed = some (roundId, row) ∧
    row.state = .RESOLVED ∧ row.metadata = some metadata ∧
    metadata.resolution = some resolution ∧ resolution.eliminatedPlayers = eliminated

/-- The transaction of a call that stands at `g`. -/
def Place.Holds (E : String → List String → Prop) (tx : Transaction N) : Place → Prop
  | .closing => True
  | .outside => tx = ⟨none, []⟩
  | .opened => tx = ⟨none, []⟩
  | .claimed roundId eliminated => Claims E tx roundId eliminated ∧ tx.logs = []
  | .logged roundId eliminated =>
    Claims E tx roundId eliminated ∧ tx.logs = eliminationLogs roundId eliminated
  | .failing => True
  | .committed => True
  | .ended => True

/-- Every transaction in progress holds the row that it has claimed, which is still
    resolvable. -/
def Database.LocksHeld (d : Database N) : Prop :=
  ∀ i tx roundId row, d.transactions i = some tx → tx.claimed = some (roundId, row) →
    d.rowLock roundId = some i ∧ ∃ row, d.rounds roundId = some row ∧ row.state.resolvable = true

/-- Each transaction in progress is what the place of its call says and holds what
    it has claimed. -/
structure Tidy (E : String → List String → Prop) (d : Database N) (gs : ℕ → Option Place) :
    Prop where
  holds : ∀ i g tx, gs i = some g → d.transactions i = some tx → g.Holds E tx
  absent : ∀ i, gs i = none → d.transactions i = none
  locked : d.LocksHeld

variable {E : String → List String → Prop} {d d' : Database N} {gs : ℕ → Option Place}
variable {i : ℕ} {g : Place}

/-- A call moves to a place that fits its transaction. -/
theorem Tidy.place (ht : Tidy E d gs)
    (hg : ∀ tx, d.transactions i = some tx → g.Holds E tx) :
    Tidy E d (Function.update gs i (some g)) := by
  refine ⟨fun j g' tx hj htx => ?_, fun j hj => ?_, ht.locked⟩
  · by_cases hji : j = i
    · subst hji
      rw [Function.update_self] at hj
      cases hj
      exact hg tx htx
    · rw [Function.update_of_ne hji] at hj
      exact ht.holds j g' tx hj htx
  · by_cases hji : j = i
    · subst hji
      rw [Function.update_self] at hj
      cases hj
    · rw [Function.update_of_ne hji] at hj
      exact ht.absent j hj

theorem Tidy.same (ht : Tidy E d gs) (hg : gs i = some g) :
    Tidy E d (Function.update gs i (some g)) :=
  ht.place fun tx htx => ht.holds i g tx hg htx

/-- A call moves to a place that fits the transaction that it gets. -/
theorem Tidy.holds_update (ht : Tidy E d gs) {tx : Transaction N} (hg : g.Holds E tx) (j : ℕ)
    (g' : Place) (tx' : Transaction N) (hj : Function.update gs i (some g) j = some g')
    (htx : Function.update d.transactions i (some tx) j = some tx') : g'.Holds E tx' := by
  by_cases hji : j = i
  · subst hji
    rw [Function.update_self] at hj htx
    cases hj
    cases htx
    exact hg
  · rw [Function.update_of_ne hji] at hj htx
    exact ht.holds j g' tx' hj htx

theorem Tidy.absent_update (ht : Tidy E d gs) {tx : Transaction N} (j : ℕ)
    (hj : Function.update gs i (some g) j = none) :
    Function.update d.transactions i (some tx) j = none := by
  by_cases hji : j = i
  · subst hji
    rw [Function.update_self] at hj
    cases hj
  · rw [Function.update_of_ne hji] at hj ⊢
    exact ht.absent j hj

/-- The transaction of a call is replaced; what it has claimed it still holds. -/
theorem Tidy.put (ht : Tidy E d gs) {tx : Transaction N} (hg : g.Holds E tx)
    (hclaimed : ∀ roundId row, tx.claimed = some (roundId, row) →
      d.rowLock roundId = some i ∧
        ∃ row, d.rounds roundId = some row ∧ row.state.resolvable = true) :
    Tidy E { d with transactions := Function.update d.transactions i (some tx) }
      (Function.update gs i (some g)) := by
  refine ⟨ht.holds_update hg, ht.absent_update, fun j tx' roundId row htx hrow => ?_⟩
  by_cases hji : j = i
  · subst hji
    simp only [Function.update_self, Option.some.injEq] at htx
    subst htx
    exact hclaimed roundId row hrow
  · simp only [Function.update_of_ne hji] at htx
    exact ht.locked j tx' roundId row htx hrow

/-- The call claims a round that nobody holds. -/
theorem Tidy.hold (ht : Tidy E d gs) {tx : Transaction N} {roundId : String}
    {row row' : RoundRow N} (hg : g.Holds E { tx with claimed := some (roundId, row') })
    (hfree : d.rowLock roundId = none) (hrow : d.rounds roundId = some row)
    (hres : row.state.resolvable = true) :
    Tidy E (d.hold i tx roundId row') (Function.update gs i (some g)) := by
  have hother : ∀ j tx' roundId' row'', d.transactions j = some tx' →
      tx'.claimed = some (roundId', row'') → roundId' ≠ roundId := by
    rintro j tx' roundId' row'' htx hclaimed rfl
    have hlock := (ht.locked j tx' roundId' row'' htx hclaimed).1
    rw [hfree] at hlock
    cases hlock
  unfold Database.hold
  refine ⟨ht.holds_update hg, ht.absent_update, fun j tx' roundId' row'' htx hclaimed => ?_⟩
  by_cases hji : j = i
  · subst hji
    simp only [Function.update_self, Option.some.injEq] at htx
    subst htx
    cases hclaimed
    exact ⟨Function.update_self .., row, hrow, hres⟩
  · simp only [Function.update_of_ne hji] at htx
    have hne := hother j tx' roundId' row'' htx hclaimed
    show Function.update d.rowLock roundId (some i) roundId' = some j ∧ _
    rw [Function.update_of_ne hne]
    exact ht.locked j tx' roundId' row'' htx hclaimed

/-- The transaction of a call ends, whatever it has written. -/
theorem Tidy.release (ht : Tidy E d gs) (i : ℕ) : Tidy E (d.release i) gs := by
  unfold Database.release
  refine ⟨fun j g' tx' hj htx => ?_, fun j hj => ?_, fun j tx' roundId row htx hclaimed => ?_⟩
  · by_cases hji : j = i
    · subst hji
      simp at htx
    · simp only [Function.update_of_ne hji] at htx
      exact ht.holds j g' tx' hj htx
  · by_cases hji : j = i
    · subst hji
      exact Function.update_self ..
    · simp only [Function.update_of_ne hji]
      exact ht.absent j hj
  · by_cases hji : j = i
    · subst hji
      simp at htx
    · simp only [Function.update_of_ne hji] at htx
      have hlock := ht.locked j tx' roundId row htx hclaimed
      refine ⟨?_, hlock.2⟩
      show (if d.rowLock roundId = some i then none else d.rowLock roundId) = some j
      rw [hlock.1, if_neg (fun h => hji (Option.some.inj h))]

/-- Committed rows change, but none of those that transactions hold. -/
theorem Tidy.rounds (ht : Tidy E d gs) {rounds : String → Option (RoundRow N)}
    {logs : List EliminationLog}
    (hrounds : ∀ roundId j, d.rowLock roundId = some j → rounds roundId = d.rounds roundId) :
    Tidy E { d with rounds := rounds, eliminationLogs := logs } gs := by
  refine ⟨ht.holds, ht.absent, fun j tx roundId row htx hclaimed => ?_⟩
  obtain ⟨hlock, hrow⟩ := ht.locked j tx roundId row htx hclaimed
  refine ⟨hlock, ?_⟩
  show ∃ row, rounds roundId = some row ∧ _
  rw [hrounds roundId j hlock]
  exact hrow

/-! ## What is committed -/

/-- `roundId` is closed; nothing else changes. -/
structure Closes (d d' : Database N) (roundId : String) : Prop where
  rounds : ∃ row, d.rounds roundId = some row ∧
    d'.rounds = Function.update d.rounds roundId (some { row with state := .CLOSED })
  users : d'.users = d.users
  eliminationLogs : d'.eliminationLogs = d.eliminationLogs

/-- A round that was OPEN or CLOSED is stored as RESOLVED with these eliminations,
    and they are logged; nothing else changes. -/
structure Resolves (E : String → List String → Prop) (d d' : Database N) (roundId : String)
    (eliminated : List String) : Prop where
  recordable : E roundId eliminated
  resolvable : ∃ row, d.rounds roundId = some row ∧ row.state.resolvable = true
  rounds : ∃ row metadata resolution, d'.rounds = Function.update d.rounds roundId (some row) ∧
    row.state = .RESOLVED ∧ row.metadata = some metadata ∧
    metadata.resolution = some resolution ∧ resolution.eliminatedPlayers = eliminated
  users : d'.users = d.users
  eliminationLogs : d'.eliminationLogs = d.eliminationLogs ++ eliminationLogs roundId eliminated

/-- What a request does to the committed rows when it takes effect. -/
inductive RowChange (E : String → List String → Prop) (d d' : Database N) :
    Option (Request N) → Prop
  | same {q} : (∀ roundId state, q ≠ some (.updateRound roundId state)) → q ≠ some .commit →
      Database.SameRows d d' → RowChange E d d' q
  | closes {roundId} : Closes d d' roundId → RowChange E d d' (some (.updateRound roundId .CLOSED))
  | resolves {roundId eliminated} : Resolves E d d' roundId eliminated →
      RowChange E d d' (some .commit)

theorem Place.claims_of_commit {tx : Transaction N} (g : Place) (hg : g.Holds E tx)
    (ha : g.allows E (.commit : Request N)) : ∃ roundId eliminated,
      Claims E tx roundId eliminated ∧ tx.logs = eliminationLogs roundId eliminated := by
  obtain ⟨roundId, rfl⟩ | ⟨roundId, eliminated, rfl⟩ := ha
  · exact ⟨roundId, [], hg.1, hg.2⟩
  · exact ⟨roundId, eliminated, hg.1, hg.2⟩

theorem Tidy.commit (ht : Tidy E d gs) (hg : gs i = some g)
    (ha : g.allows E (.commit : Request N)) (hc : d.commit i = some d') :
    Tidy E d' gs ∧ ∃ roundId eliminated, Resolves E d d' roundId eliminated := by
  obtain ⟨tx, htx, rfl⟩ := Database.commit_eq_some.mp hc
  obtain ⟨roundId, eliminated, hclaims, hlogs⟩ := g.claims_of_commit (ht.holds i g tx hg htx) ha
  obtain ⟨row, metadata, resolution, hclaimed, hstate, hmeta, hres, helim⟩ := hclaims.claimed
  obtain ⟨hlock, hrow⟩ := ht.locked i tx roundId row htx hclaimed
  have hrounds : (d.apply tx).rounds = Function.update d.rounds roundId (some row) := by
    unfold Database.apply
    rw [hclaimed]
  constructor
  · refine (ht.release i).rounds fun roundId' j hj => ?_
    have hne : roundId' ≠ roundId := by
      rintro rfl
      unfold Database.release at hj
      simp [hlock] at hj
    show (d.apply tx).rounds roundId' = _
    rw [hrounds, Function.update_of_ne hne]
    rfl
  · refine ⟨roundId, eliminated, hclaims.recordable, hrow, ⟨row, metadata, resolution, hrounds,
      hstate, hmeta, hres, helim⟩, rfl, ?_⟩
    show d.eliminationLogs ++ tx.logs = _
    rw [hlogs]

theorem Tidy.updateRound (ht : Tidy E d gs) {roundId : String}
    (hu : d.updateRound roundId .CLOSED = some d') : Tidy E d' gs ∧ Closes d d' roundId := by
  obtain ⟨hfree, row, hrow, rfl⟩ := Database.updateRound_eq_some.mp hu
  refine ⟨ht.rounds fun roundId' j hj => ?_, ⟨row, hrow, rfl⟩, rfl, rfl⟩
  have hne : roundId' ≠ roundId := by
    rintro rfl
    rw [hfree] at hj
    cases hj
  exact Function.update_of_ne hne ..

variable {net : Network H} {w w' : Platform N H}

/-- A request that takes effect leaves the database tidy, whether its answer
    arrives or not. -/
theorem Tidy.serves (ht : Tidy E w.db gs) (hg : gs i = some g) {q : Request N} {a : Answer N q}
    (ha : g.allows E q) (hs : serves net i q w a w') (e : RoundError) :
    Tidy E w'.db (Function.update gs i (some (g.next q (.ok a)))) ∧
      Tidy E w'.db (Function.update gs i (some (g.next q (.error e)))) := by
  cases q with
  | findRound roundId =>
    obtain ⟨-, rfl⟩ := hs
    exact ⟨ht.same hg, ht.same hg⟩
  | updateRound roundId state =>
    obtain ⟨-, rfl⟩ := ha
    obtain ⟨db, hu, rfl⟩ := hs
    have ht' := (ht.updateRound hu).1
    exact ⟨ht'.same hg, ht'.same hg⟩
  | beginTransaction =>
    obtain rfl := hs
    have hnone : ∀ roundId row, (⟨none, []⟩ : Transaction N).claimed = some (roundId, row) →
        w.db.rowLock roundId = some i ∧
          ∃ row, w.db.rounds roundId = some row ∧ row.state.resolvable = true :=
      fun _ _ h => nomatch h
    exact ⟨ht.put rfl hnone, ht.put trivial hnone⟩
  | claimRound roundId state metadata =>
    obtain ⟨rfl, rfl, resolution, hres, hE⟩ := ha
    obtain ⟨db, hc, rfl⟩ := hs
    obtain ⟨tx, htx, hfree, ⟨row, hrow, hstate, rfl, rfl⟩ | ⟨-, rfl, rfl⟩⟩ :=
      Database.claimRound_cases hc
    · obtain rfl : tx = ⟨none, []⟩ := ht.holds i _ tx hg htx
      have hclaims : Claims E (⟨some (roundId,
          { row with state := .RESOLVED, metadata := some metadata }), []⟩ : Transaction N)
          roundId metadata.eliminated := by
        have helim : metadata.eliminated = resolution.eliminatedPlayers := by
          unfold RoundMetadata.eliminated
          rw [hres]
          rfl
        rw [helim]
        exact ⟨hE, _, metadata, resolution, rfl, rfl, rfl, hres, rfl⟩
      exact ⟨ht.hold ⟨hclaims, rfl⟩ hfree hrow hstate, ht.hold trivial hfree hrow hstate⟩
    · exact ⟨ht.place fun _ _ => trivial, ht.place fun _ _ => trivial⟩
  | createLogs logs =>
    obtain ⟨roundId, eliminated, rfl, rfl⟩ := ha
    obtain ⟨db, hc, rfl⟩ := hs
    obtain ⟨tx, htx, -, rfl⟩ := Database.createLogs_eq_some.mp hc
    obtain ⟨hclaims, hnil⟩ := ht.holds i _ tx hg htx
    have hlocked := fun roundId row => ht.locked i tx roundId row htx
    refine ⟨ht.put ⟨⟨hclaims.recordable, hclaims.claimed⟩, ?_⟩ hlocked, ht.put trivial hlocked⟩
    show tx.logs ++ _ = _
    rw [hnil, List.nil_append]
  | commit =>
    obtain ⟨db, hc, rfl⟩ := hs
    have ht' := (ht.commit hg ha hc).1
    exact ⟨ht'.place fun _ _ => trivial, ht'.place fun _ _ => trivial⟩
  | rollback =>
    obtain rfl := hs
    exact ⟨(ht.release i).place fun _ _ => trivial, (ht.release i).place fun _ _ => trivial⟩
  | countActiveArenas =>
    obtain rfl := hs
    exact ⟨ht.same hg, ht.same hg⟩
  | invalidateArenaStats arenaId =>
    obtain rfl := hs
    exact ⟨ht.same hg, ht.same hg⟩
  | getAccount publicKey =>
    obtain rfl := hs
    exact ⟨ht.same hg, ht.same hg⟩
  | simulateTransaction contractId call =>
    obtain ⟨-, rfl⟩ := hs
    exact ⟨ht.same hg, ht.same hg⟩
  | sendTransaction contractId call =>
    obtain ⟨arena, -, rfl⟩ := hs
    exact ⟨ht.same hg, ht.same hg⟩
  | getTransaction hash =>
    obtain ⟨arena, -, rfl⟩ := hs
    exact ⟨ht.same hg, ht.same hg⟩

/-- A refused request leaves its call where it was, or failing. -/
theorem Tidy.refused (ht : Tidy E w.db gs) (hg : gs i = some g) (q : Request N) (e : RoundError) :
    Tidy E w.db (Function.update gs i (some (g.next q (.error e)))) := by
  cases q with
  | beginTransaction => exact ht.place fun _ _ => trivial
  | claimRound roundId state metadata => exact ht.place fun _ _ => trivial
  | createLogs logs => exact ht.place fun _ _ => trivial
  | commit => exact ht.place fun _ _ => trivial
  | rollback => exact ht.place fun _ _ => trivial
  | _ => exact ht.same hg

theorem Tidy.reply (ht : Tidy E w.db gs) (hg : gs i = some g)
    {r : Reply (Answer N) RoundError} (ha : g.allows E r.request)
    (hr : (platform net).Replies i w r w') :
    Tidy E w'.db (Function.update gs i (some (g.next r.request r.answer))) := by
  cases hr with
  | served hs => exact (ht.serves hg ha hs .notAnArray).1
  | lost hs => exact (ht.serves hg ha hs _).2
  | refused => exact ht.refused hg _ _

/-- What a reply does to the committed rows. -/
theorem Tidy.rows (ht : Tidy E w.db gs) (hg : gs i = some g)
    {r : Reply (Answer N) RoundError} (ha : g.allows E r.request)
    (hr : (platform net).Replies i w r w') : RowChange E w.db w'.db r.effective := by
  have hserves : ∀ {q : Request N} {a : Answer N q}, g.allows E q → Backend.serves net i q w a w' →
      RowChange E w.db w'.db (some q) := by
    intro q a ha hs
    cases q with
    | findRound roundId =>
      obtain ⟨-, rfl⟩ := hs
      exact .same (fun _ _ h => nomatch h) (fun h => nomatch h) .refl
    | updateRound roundId state =>
      obtain ⟨-, rfl⟩ := ha
      obtain ⟨db, hu, rfl⟩ := hs
      exact .closes (ht.updateRound hu).2
    | beginTransaction =>
      obtain rfl := hs
      exact .same (fun _ _ h => nomatch h) (fun h => nomatch h) ⟨rfl, rfl, rfl⟩
    | claimRound roundId state metadata =>
      obtain ⟨db, hc, rfl⟩ := hs
      obtain ⟨tx, -, -, ⟨row, -, -, -, rfl⟩ | ⟨-, -, rfl⟩⟩ := Database.claimRound_cases hc
      · exact .same (fun _ _ h => nomatch h) (fun h => nomatch h) ⟨rfl, rfl, rfl⟩
      · exact .same (fun _ _ h => nomatch h) (fun h => nomatch h) .refl
    | createLogs logs =>
      obtain ⟨db, hc, rfl⟩ := hs
      obtain ⟨tx, -, -, rfl⟩ := Database.createLogs_eq_some.mp hc
      exact .same (fun _ _ h => nomatch h) (fun h => nomatch h) ⟨rfl, rfl, rfl⟩
    | commit =>
      obtain ⟨db, hc, rfl⟩ := hs
      obtain ⟨roundId, eliminated, hres⟩ := (ht.commit hg ha hc).2
      exact .resolves hres
    | rollback =>
      obtain rfl := hs
      exact .same (fun _ _ h => nomatch h) (fun h => nomatch h) ⟨rfl, rfl, rfl⟩
    | simulateTransaction contractId call =>
      obtain ⟨-, rfl⟩ := hs
      exact .same (fun _ _ h => nomatch h) (fun h => nomatch h) .refl
    | sendTransaction contractId call =>
      obtain ⟨arena, -, rfl⟩ := hs
      exact .same (fun _ _ h => nomatch h) (fun h => nomatch h) .refl
    | getTransaction hash =>
      obtain ⟨arena, -, rfl⟩ := hs
      exact .same (fun _ _ h => nomatch h) (fun h => nomatch h) .refl
    | _ =>
      obtain rfl := hs
      exact .same (fun _ _ h => nomatch h) (fun h => nomatch h) .refl
  cases hr with
  | served hs => exact hserves ha hs
  | lost hs => exact hserves ha hs
  | refused => exact .same (fun _ _ h => nomatch h) (fun h => nomatch h) .refl

/-- The database gives up a transaction. -/
theorem Tidy.abort (ht : Tidy E d gs) (i : ℕ) : Tidy E (d.rollback i) gs := ht.release i

end InverseArena.Backend
