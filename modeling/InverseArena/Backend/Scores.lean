import InverseArena.Backend.RoundOrder
import InverseArena.Backend.Standings

/-!
# The figures after any calls

What `users.controller.ts` and `leaderboard.controller.ts` make of the tables that the calls of the
round service leave behind. The profile asks for the id of a document of MongoDB, the choices and
the logs name users of PostgreSQL by UUID, and a payout would name an address. Nothing is assumed
of the SDK and of the contract's `resolve_round`; the sample runs, in which a resolution is
committed, need an SDK and a contract with which the service can submit (`sendingService`,
`sendingNet`).

Results:
* `Stored.of_run`: what every stored round and every log has in common.
* `standings_of_run`: the leaderboard counts games and streaks as the profile would.
* `unscored_of_run`: every profile shows nothing, and the leaderboard no yield.
-/

namespace InverseArena.Backend

open Async Transition

variable {N H : Type}

/-! ## What is stored -/

/-- The metadata of the stored rounds, and of those that transactions have claimed, have `M`, and
    the logs `L`. -/
structure Stored (M : RoundMetadata N → Prop) (L : EliminationLog → Prop) (d : Database N) :
    Prop where
  rounds : ∀ roundId, ∀ row ∈ d.rounds roundId, ∀ metadata ∈ row.metadata, M metadata
  claimed : ∀ i, ∀ tx ∈ d.transactions i, ∀ claim ∈ tx.claimed,
    ∀ metadata ∈ claim.2.metadata, M metadata
  logs : ∀ log ∈ d.eliminationLogs, L log
  pending : ∀ i, ∀ tx ∈ d.transactions i, ∀ log ∈ tx.logs, L log

/-- A call claims rounds with such metadata and writes such logs. -/
def storing (M : RoundMetadata N → Prop) (L : EliminationLog → Prop) (names : Native → Prop) :
    Protocol (Answer N) RoundError Unit where
  allowed _ q :=
    (∀ roundId state metadata, q = .claimRound roundId state metadata → M metadata) ∧
      ∀ logs, q = .createLogs logs → ∀ log ∈ logs, L log
  answers := Names names
  next _ _ _ := ()

variable {M : RoundMetadata N → Prop} {L : EliminationLog → Prop} {names : Native → Prop}
variable {d : Database N} {i : ℕ}

/-! ### What the database keeps -/

theorem Stored.release (h : Stored M L d) (i : ℕ) : Stored M L (d.release i) where
  rounds := h.rounds
  claimed j tx htx := by
    change Function.update d.transactions i none j = some tx at htx
    by_cases hj : j = i
    · subst hj
      rw [Function.update_self] at htx
      cases htx
    · rw [Function.update_of_ne hj] at htx
      exact h.claimed j tx htx
  logs := h.logs
  pending j tx htx := by
    change Function.update d.transactions i none j = some tx at htx
    by_cases hj : j = i
    · subst hj
      rw [Function.update_self] at htx
      cases htx
    · rw [Function.update_of_ne hj] at htx
      exact h.pending j tx htx

/-- A transaction is replaced. -/
theorem Stored.put (h : Stored M L d) (tx : Transaction N) {lock : String → Option ℕ}
    (hclaimed : ∀ claim ∈ tx.claimed, ∀ metadata ∈ claim.2.metadata, M metadata)
    (hpending : ∀ log ∈ tx.logs, L log) :
    Stored M L { d with
      transactions := Function.update d.transactions i (some tx), rowLock := lock } where
  rounds := h.rounds
  claimed j tx' htx' := by
    change Function.update d.transactions i (some tx) j = some tx' at htx'
    by_cases hj : j = i
    · subst hj
      rw [Function.update_self] at htx'
      obtain rfl := Option.some.inj htx'
      exact hclaimed
    · rw [Function.update_of_ne hj] at htx'
      exact h.claimed j tx' htx'
  logs := h.logs
  pending j tx' htx' := by
    change Function.update d.transactions i (some tx) j = some tx' at htx'
    by_cases hj : j = i
    · subst hj
      rw [Function.update_self] at htx'
      obtain rfl := Option.some.inj htx'
      exact hpending
    · rw [Function.update_of_ne hj] at htx'
      exact h.pending j tx' htx'

/-- A row and the logs are replaced. -/
theorem Stored.write (h : Stored M L d) {roundId : String} {row : RoundRow N}
    {logs : List EliminationLog} (hrow : ∀ metadata ∈ row.metadata, M metadata)
    (hlogs : ∀ log ∈ logs, L log) :
    Stored M L { d with
      rounds := Function.update d.rounds roundId (some row), eliminationLogs := logs } where
  rounds roundId' row' hrow' := by
    change Function.update d.rounds roundId (some row) roundId' = some row' at hrow'
    by_cases hid : roundId' = roundId
    · subst hid
      rw [Function.update_self] at hrow'
      obtain rfl := Option.some.inj hrow'
      exact hrow
    · rw [Function.update_of_ne hid] at hrow'
      exact h.rounds roundId' row' hrow'
  claimed := h.claimed
  logs := hlogs
  pending := h.pending

variable {net : Network H} {w w' : Platform N H}

/-- A request that takes effect keeps what is stored so. -/
theorem Stored.serves (h : Stored M L w.db) {q : Request N} {a : Answer N q}
    (ha : (storing M L names : Protocol (Answer N) RoundError Unit).allowed () q)
    (hs : Backend.serves net i q w a w') : Stored M L w'.db := by
  cases q with
  | updateRound roundId state =>
    obtain ⟨db, hu, rfl⟩ := hs
    obtain ⟨-, row, hrow, rfl⟩ := Database.updateRound_eq_some.mp hu
    exact h.write (h.rounds roundId row hrow) h.logs
  | beginTransaction =>
    obtain rfl := hs
    exact h.put ⟨none, []⟩ (by simp) (by simp)
  | claimRound roundId state metadata =>
    obtain ⟨db, hc, rfl⟩ := hs
    obtain ⟨tx, htx, -, ⟨row, -, -, -, rfl⟩ | ⟨-, -, rfl⟩⟩ := Database.claimRound_cases hc
    · refine h.put _ (fun claim hclaim metadata' hmetadata => ?_) (h.pending i tx htx)
      cases hclaim
      cases hmetadata
      exact ha.1 roundId state metadata rfl
    · exact h
  | createLogs logs =>
    obtain ⟨db, hc, rfl⟩ := hs
    obtain ⟨tx, htx, -, rfl⟩ := Database.createLogs_eq_some.mp hc
    refine h.put { tx with logs := tx.logs ++ logs } (h.claimed i tx htx) fun log hlog => ?_
    rcases List.mem_append.mp hlog with hlog | hlog
    · exact h.pending i tx htx log hlog
    · exact ha.2 logs rfl log hlog
  | commit =>
    obtain ⟨db, hc, rfl⟩ := hs
    obtain ⟨tx, htx, rfl⟩ := Database.commit_eq_some.mp hc
    have hlogs : ∀ log ∈ w.db.eliminationLogs ++ tx.logs, L log := by
      intro log hlog
      rcases List.mem_append.mp hlog with hlog | hlog
      · exact h.logs log hlog
      · exact h.pending i tx htx log hlog
    refine Stored.release ?_ i
    unfold Database.apply
    cases hclaimed : tx.claimed with
    | none => exact ⟨h.rounds, h.claimed, hlogs, h.pending⟩
    | some claim => exact h.write (h.claimed i tx htx claim hclaimed) hlogs
  | rollback =>
    obtain rfl := hs
    exact h.release i
  | findRound roundId =>
    obtain ⟨-, rfl⟩ := hs
    exact h
  | simulateTransaction contractId call =>
    obtain ⟨-, rfl⟩ := hs
    exact h
  | sendTransaction contractId call =>
    obtain ⟨arena, -, rfl⟩ := hs
    exact h
  | getTransaction hash =>
    obtain ⟨arena, -, rfl⟩ := hs
    exact h
  | _ =>
    obtain rfl := hs
    exact h

/-- The tables are stored so; where the calls stand does not matter. -/
def StoredPlatform (M : RoundMetadata N → Prop) (L : EliminationLog → Prop) (w : Platform N H)
    (_ : ℕ → Option Unit) : Prop := Stored M L w.db

/-- On a server that serves as the platform does and answers `get_winner` with `names`. -/
theorem preserved_stored {S : Server (Answer N) (Platform N H) (PlatformMove H)}
    (hserves : ∀ {i q w a w'},
      S.serves i q w a w' → Backend.serves net i q w a w' ∧ Names names q a)
    (hmoves : ∀ {m w w'}, S.moves m w w' → Platform.Moves net m w w') :
    Preserved S (storing M L names) (fun _ : RoundCall N => ()) (StoredPlatform M L) where
  answers h := (hserves h).2
  start _ h _ := h
  reply {s gs i g r s'} h _ ha hr := by
    cases hr with
    | served hs => exact Stored.serves h ha (hserves hs).1
    | lost hs => exact Stored.serves h ha (hserves hs).1
    | refused => exact h
  moved {s gs m s'} h hm := by
    cases m with
    | abort i =>
      obtain rfl := hmoves hm
      exact Stored.release h i
    | arena a =>
      obtain ⟨arena, -, rfl⟩ := hmoves hm
      exact h

theorem names_true {q : Request N} (a : Answer N q) : Names (fun _ => True) q a := by
  cases q with
  | simulateTransaction contractId call =>
    cases call with
    | get_winner =>
      match a with
      | .error _ => exact trivial
      | .empty => exact trivial
      | .success none => exact trivial
      | .success (some _) => exact trivial
    | _ => exact trivial
  | _ => exact trivial

variable [JsNumber N]

/-- The metadata and the logs that a resolution of `input` stores. -/
structure Storable (M : RoundMetadata N → Prop) (L : EliminationLog → Prop)
    (names : Native → Prop) (input : RoundInput N) : Prop where
  metadata : ∀ (ids : List String) (payouts : List (Payout N)) (poolBalances : String → Option N),
    (∀ p ∈ payouts, ∃ result, result.toText = some p.userId ∧ names result) →
      M ⟨input.playerChoices, input.oracleYield, input.randomSeed,
        some ⟨input.allActivePlayerIds.filter (· ∉ ids), payouts, poolBalances⟩⟩
  logs : ∀ id ∈ input.allActivePlayerIds, L ⟨input.roundId, id, "ELIMINATED_BY_ROUND"⟩

/-- A resolution of a storable input; a call that closes a round stores nothing. -/
def RoundCall.Stores (M : RoundMetadata N → Prop) (L : EliminationLog → Prop)
    (names : Native → Prop) : RoundCall N → Prop
  | .resolveRound input => Storable M L names input
  | .closeRound _ => True

theorem RoundCall.stores (svc : Service) {c : RoundCall N} (hc : c.Stores M L names) :
    (c.program svc).Follows (storing M L names) () fun _ _ => True := by
  refine RoundCall.follows_of svc ?_ ?_
  · refine fun q hq => ⟨?_, ?_⟩
    · rintro roundId state metadata rfl
      cases hq
    · rintro logs rfl
      cases hq
  · rintro input rfl ids payouts poolBalances hpayouts
    refine ⟨⟨?_, fun _ heq => nomatch heq⟩, (fun _ _ _ heq => nomatch heq), ?_⟩
    · intro roundId state metadata heq
      cases heq
      refine hc.metadata ids payouts poolBalances fun p hp => ?_
      obtain rfl | ⟨result, a, htext, hname, rfl⟩ := hpayouts
      · cases hp
      · obtain rfl := List.mem_singleton.mp hp
        exact ⟨result, htext, hname⟩
    · intro logs heq log hlog
      cases heq
      obtain ⟨id, hid, rfl⟩ := List.mem_map.mp hlog
      exact hc.logs id (List.mem_of_mem_filter hid)

/-! ### Runs -/

/-- Nothing has been resolved or logged, and no transaction is in progress. -/
structure Database.Fresh (d : Database N) : Prop where
  rounds : ∀ roundId, ∀ row ∈ d.rounds roundId, row.state = .OPEN ∧ row.metadata = none
  logs : d.eliminationLogs = []
  idle : ∀ i, d.transactions i = none

omit [JsNumber N] in
theorem Database.Fresh.stored (h : d.Fresh) : Stored M L d where
  rounds roundId row hrow metadata hmetadata := by
    rw [(h.rounds roundId row hrow).2] at hmetadata
    cases hmetadata
  claimed i tx htx := by
    rw [h.idle i] at htx
    cases htx
  logs log hlog := by
    rw [h.logs] at hlog
    cases hlog
  pending i tx htx := by
    rw [h.idle i] at htx
    cases htx

variable {svc : Service} {t : RoundSystem N H} {tr : List (RoundSystem N H × RoundEvent N H)}

/-- What is stored in every state of a run whose calls store such. -/
theorem Stored.of_run {S : Server (Answer N) (Platform N H) (PlatformMove H)}
    (hserves : ∀ {i q w a w'},
      S.serves i q w a w' → Backend.serves net i q w a w' ∧ Names names q a)
    (hmoves : ∀ {m w w'}, S.moves m w w' → Platform.Moves net m w w') (hnew : w.db.Fresh)
    (hrun : Run (System.Step (RoundCall.program svc) S) (.idle w) tr t)
    (hcalls : ∀ e ∈ tr, ∀ i c, e.2 = .start i c → c.Stores M L names) :
    Stored M L t.shared.db := by
  obtain ⟨gs, h, -⟩ := Guarded.of_run_of_starts (preserved_stored hserves hmoves)
    (fun c hc => RoundCall.stores svc hc) hnew.stored hrun hcalls
  exact h

/-! ## Games and streaks -/

/-- A request whose players are named once each, and where every active player has a choice. -/
structure FairInput (input : RoundInput N) : Prop where
  choices : (input.playerChoices.map (·.userId)).Nodup
  active : input.allActivePlayerIds.Nodup
  chosen : ∀ id ∈ input.allActivePlayerIds, id ∈ input.playerChoices.map (·.userId)

/-- A resolution of a fair input, or a call that closes a round. -/
def RoundCall.Fair : RoundCall N → Prop
  | .resolveRound input => FairInput input
  | .closeRound _ => True

/-- Metadata with at most one choice of a player, that eliminates players with a choice, each of
    them once. -/
structure FairMetadata (metadata : RoundMetadata N) : Prop where
  choices : (metadata.playerChoices.map (·.userId)).Nodup
  eliminated : metadata.eliminated.Nodup
  chosen : ∀ id ∈ metadata.eliminated, id ∈ metadata.playerChoices.map (·.userId)

/-- No round is closed after it has been resolved. -/
def AllCloseInTime (tr : List (RoundSystem N H × RoundEvent N H)) : Prop :=
  EachStep (fun tr t ev => ∀ roundId, ClosesInTime roundId tr t ev) tr

/-- The event is no update that closes a round. -/
def RoundEvent.closesNone (ev : RoundEvent N H) : Bool :=
  match ev.effective with
  | some (.updateRound _ _) => false
  | _ => true

omit [JsNumber N] in
theorem allCloseInTime_of_closesNone (h : ∀ e ∈ tr, RoundEvent.closesNone e.2 = true) :
    AllCloseInTime tr := by
  unfold AllCloseInTime
  induction tr with
  | nil => exact trivial
  | cons e tr ih =>
    refine ⟨fun roundId hq => ?_, ih fun e' he' => h e' (List.mem_cons_of_mem e he')⟩
    have hnone := h e List.mem_cons_self
    unfold RoundEvent.closesNone at hnone
    rw [hq] at hnone
    cases hnone

omit [JsNumber N] in
theorem RoundCall.Fair.stores {c : RoundCall N} (h : c.Fair) :
    c.Stores FairMetadata (fun _ => True) (fun _ => True) := by
  cases c with
  | resolveRound input =>
    refine ⟨fun ids payouts poolBalances _ => ⟨h.choices, ?_, ?_⟩, fun _ _ => trivial⟩
    · exact h.active.filter _
    · exact fun id hid => h.chosen id (List.mem_of_mem_filter hid)
  | closeRound roundId => exact trivial

omit [JsNumber N] in
theorem Stored.fairRounds {L : EliminationLog → Prop} (h : Stored FairMetadata L d) :
    d.FairRounds := by
  intro roundId row hrow
  cases hmetadata : row.metadata with
  | none =>
    unfold RoundRow.hasChoice RoundRow.choices RoundRow.eliminated
    rw [hmetadata]
    exact ⟨List.nodup_nil, List.nodup_nil, fun _ hid => absurd hid List.not_mem_nil⟩
  | some metadata =>
    have hM := h.rounds roundId row hrow metadata hmetadata
    simp only [RoundRow.hasChoice_iff, ← List.mem_map]
    unfold RoundRow.choices RoundRow.eliminated
    rw [hmetadata]
    exact ⟨hM.choices, hM.eliminated, hM.chosen⟩

omit [JsNumber N] in
/-- Rows and logs of a round that have not changed. -/
theorem Database.LogsResolved.unrelated {d' : Database N} (h : d.LogsResolved) {roundId : String}
    (hrounds : d'.rounds roundId = d.rounds roundId) (hlogs : d'.logsOf roundId = d.logsOf roundId)
    {row : RoundRow N} (hrow : row ∈ d'.rounds roundId) :
    row.state.resolvable = true ∧ d'.logsOf roundId = [] ∨
      row.state = .RESOLVED ∧
        d'.logsOf roundId = Backend.eliminationLogs roundId row.eliminated := by
  rw [hrounds] at hrow
  rw [hlogs]
  exact h roundId row hrow

/-- A step that closes no resolved round keeps the logs those of the resolved rounds. -/
theorem Database.LogsResolved.step {u : RoundSystem N H} {ev : RoundEvent N H} (ht : TidySystem t)
    (h : t.shared.db.LogsResolved) (hclose : ∀ roundId, ClosesInTime roundId tr t ev)
    (hs : RoundStep svc net t ev u) : u.shared.db.LogsResolved := by
  have hrows := RoundStep.rows ht hs
  unfold ClosesInTime at hclose
  generalize RoundEvent.effective ev = q at hrows hclose
  intro roundId row hrow
  cases hrows with
  | same _ _ hsame =>
    refine h.unrelated (congrFun hsame.rounds _) ?_ hrow
    unfold Database.logsOf
    rw [hsame.eliminationLogs]
  | @closes roundId' hcloses =>
    obtain ⟨old, hold, hrounds⟩ := hcloses.rounds
    have hlogs : u.shared.db.logsOf roundId = t.shared.db.logsOf roundId := by
      unfold Database.logsOf
      rw [hcloses.eliminationLogs]
    by_cases hid : roundId' = roundId
    · subst hid
      have hresolvable := hclose roundId' rfl old.state (stateOf_eq hold)
      rw [hrounds, Function.update_self] at hrow
      obtain rfl := Option.some.inj hrow
      obtain ⟨-, hnil⟩ | ⟨hstate, -⟩ := h roundId' old hold
      · exact .inl ⟨rfl, hlogs.trans hnil⟩
      · rw [hstate] at hresolvable
        cases hresolvable
    · refine h.unrelated ?_ hlogs hrow
      rw [hrounds, Function.update_of_ne (Ne.symm hid)]
  | @resolves roundId' eliminated hres =>
    obtain ⟨row', metadata, resolution, hrounds, hresolved, hmeta, hresolution, helim⟩ :=
      hres.rounds
    have hlogs : u.shared.db.logsOf roundId = _ := logsOf_eq_of_append hres.eliminationLogs
    by_cases hid : roundId' = roundId
    · subst hid
      rw [hrounds, Function.update_self] at hrow
      obtain rfl := Option.some.inj hrow
      obtain ⟨old, hold, hresolvable⟩ := hres.resolvable
      obtain ⟨-, hnil⟩ | ⟨hstate, -⟩ := h roundId' old hold
      · have heq : row'.eliminated = eliminated := by
          unfold RoundRow.eliminated RoundMetadata.eliminated
          rw [hmeta, Option.map_some, Option.getD_some, hresolution, Option.map_some,
            Option.getD_some, helim]
        rw [hnil, List.nil_append, filter_eliminationLogs_self] at hlogs
        rw [heq]
        exact .inr ⟨hresolved, hlogs⟩
      · rw [hstate] at hresolvable
        cases hresolvable
    · rw [filter_eliminationLogs_of_ne hid, List.append_nil] at hlogs
      refine h.unrelated ?_ hlogs hrow
      rw [hrounds, Function.update_of_ne (Ne.symm hid)]

theorem logsResolved_of_run (hnew : w.db.Fresh) (hrun : Run (RoundStep svc net) (.idle w) tr t)
    (hclose : AllCloseInTime tr) : t.shared.db.LogsResolved := by
  have hstart : w.db.LogsResolved := by
    intro roundId row hrow
    refine .inl ⟨?_, ?_⟩
    · rw [(hnew.rounds roundId row hrow).1]
      rfl
    · unfold Database.logsOf
      rw [hnew.logs, List.filter_nil]
  exact (hrun.alongRun (P := fun _ t => t.shared.db.LogsResolved) hstart
    (fun _ _ _ _ hr h hc hs => h.step (tidy_of_run hnew.idle hr) hc hs)
    hclose).last

/-- Calls change rounds but make none. -/
theorem Database.Lists.of_run (hidle : ∀ i, w.db.transactions i = none) {ids : List String}
    (hlists : w.db.Lists ids) (hrun : Run (RoundStep svc net) (.idle w) tr t) :
    t.shared.db.Lists ids := by
  have hsome : ∀ roundId, (t.shared.db.rounds roundId).isSome = (w.db.rounds roundId).isSome := by
    refine hrun.history (I := fun _ t => ∀ roundId,
      (t.shared.db.rounds roundId).isSome = (w.db.rounds roundId).isSome) (fun _ => rfl) ?_
    intro tr t ev u hr ih hs roundId
    rw [← ih roundId]
    have hrows := RoundStep.rows (tidy_of_run hidle hr) hs
    generalize RoundEvent.effective ev = q at hrows
    have hupdate : ∀ roundId' (old row : RoundRow N), t.shared.db.rounds roundId' = some old →
        u.shared.db.rounds = Function.update t.shared.db.rounds roundId' (some row) →
        (u.shared.db.rounds roundId).isSome = (t.shared.db.rounds roundId).isSome := by
      intro roundId' old row hold hrounds
      rw [hrounds]
      by_cases hid : roundId = roundId'
      · subst hid
        rw [Function.update_self, hold]
        rfl
      · rw [Function.update_of_ne hid]
    cases hrows with
    | same _ _ hsame => rw [hsame.rounds]
    | @closes roundId' hcloses =>
      obtain ⟨old, hold, hrounds⟩ := hcloses.rounds
      exact hupdate roundId' old _ hold hrounds
    | @resolves roundId' eliminated hres =>
      obtain ⟨old, hold, -⟩ := hres.resolvable
      obtain ⟨row, _, _, hrounds, -⟩ := hres.rounds
      exact hupdate roundId' old row hold hrounds
  refine ⟨hlists.nodup, fun id => ?_⟩
  rw [hsome id]
  exact hlists.mem_iff id

/-- In every run of fair calls that closes no resolved round, the query of the leaderboard counts
    the games that a player has won as the profile does, and its streak is the number of the
    resolved rounds in which the player has a choice and is not eliminated. -/
theorem standings_of_run (hnew : w.db.Fresh) (hrun : Run (RoundStep svc net) (.idle w) tr t)
    (hfair : ∀ e ∈ tr, ∀ i c, e.2 = .start i c → c.Fair) (hclose : AllCloseInTime tr)
    {ids : List String} (hlists : t.shared.db.Lists ids) (numeric : N → ℚ) :
    ∀ row ∈ t.shared.db.standings numeric ids,
      row.arenasWon = t.shared.db.countGamesWon ids row.id ∧
      row.survivalStreak = ((t.shared.db.resolvedRounds ids).filter fun round =>
        round.hasChoice row.id && decide (row.id ∉ round.eliminated)).length := by
  have hlogs := logsResolved_of_run hnew hrun hclose
  have hstored : Stored FairMetadata (fun _ => True) t.shared.db :=
    Stored.of_run (S := platform net) (fun h => ⟨h, names_true _⟩) (fun h => h) hnew hrun
      fun e he i c hc => (hfair e he i c hc).stores
  intro row hrow
  obtain ⟨userId, -, user, -, rfl⟩ := Database.mem_standings.mp hrow
  refine ⟨Database.arenasWon_eq_countGamesWon_iff.mpr (.inl ?_), ?_⟩
  · exact Database.eliminationArenas_subset hlists hlogs hstored.fairRounds
  · exact Database.survivalStreak_eq hlists hlogs hstored.fairRounds user

theorem sampleDatabase_fresh : sampleDatabase.Fresh where
  rounds roundId row hrow := by
    change (if roundId = sampleRound then some (⟨"arena", 1, .OPEN, none⟩ : RoundRow ℚ) else none) =
      some row at hrow
    split_ifs at hrow
    cases hrow
    exact ⟨rfl, rfl⟩
  logs := rfl
  idle _ := rfl

theorem sampleDatabase_lists : sampleDatabase.Lists [sampleRound] where
  nodup := List.nodup_singleton _
  mem_iff id := by
    unfold sampleDatabase
    dsimp only
    rw [List.mem_singleton]
    split_ifs with hid
    · exact iff_of_true hid rfl
    · exact iff_of_false hid (by simp)

/-- The sample round is resolved. -/
def sampleResolving :
    List (Move RoundError (RoundCall ℚ) (PlatformMove Arena.VaultState) Inclusion) :=
  .start 0 (.resolveRound sampleInput) :: List.replicate 15 (.serve 0 .prompt)

theorem starts_sampleResolving {m} (hm : m ∈ sampleResolving) (i : ℕ) (c : RoundCall ℚ)
    (hstart : m = .start i c) : c = .resolveRound sampleInput := by
  subst hstart
  obtain heq | hserve := List.mem_cons.mp hm
  · cases heq
    rfl
  · cases List.eq_of_mem_replicate hserve

theorem sampleInput_fair : FairInput sampleInput := ⟨by decide, by decide, by decide⟩

theorem standings_of_run_sample : ∃ tr t,
    Run (RoundStep sendingService sendingNet) (.idle samplePlatform) tr t ∧
      stateOf t sampleRound = some .RESOLVED ∧
      ∀ row ∈ t.shared.db.standings id [sampleRound],
        row.arenasWon = t.shared.db.countGamesWon [sampleRound] row.id ∧
        row.survivalStreak = ((t.shared.db.resolvedRounds [sampleRound]).filter fun round =>
          round.hasChoice row.id && decide (row.id ∉ round.eliminated)).length := by
  have hreplay : ∃ r ∈ replay ((working sendingNet).perform (RoundCall.program sendingService))
      sampleResolving [] (.idle samplePlatform),
      stateOf r.2 sampleRound = some .RESOLVED ∧
        ∀ e ∈ r.1, RoundEvent.closesNone e.2 = true := by
    decide +kernel
  obtain ⟨tr, t, hrun, hstarts, hstate, hnone⟩ := (working sendingNet).exists_run_of_starts
    (A := (· = .resolveRound sampleInput)) (T := fun tr t => stateOf t sampleRound = _ ∧
      ∀ e ∈ tr, RoundEvent.closesNone e.2 = true) (fun m hm => starts_sampleResolving hm) hreplay
  refine ⟨tr, t, hrun, hstate, standings_of_run sampleDatabase_fresh hrun ?_
    (allCloseInTime_of_closesNone hnone) ?_ id⟩
  · intro e he i c hc
    obtain rfl := hstarts e he i c hc
    exact sampleInput_fair
  · exact sampleDatabase_lists.of_run (fun _ => rfl) hrun

/-! ## Profiles and yields -/

/-- An id of MongoDB, as text. -/
def isObjectId (s : String) : Bool := s.toList.length = 24 && s.toList.all isHexDigit

/-- `get_winner` answers with an address, if with a text at all. -/
def NamesAddress (result : Native) : Prop := ∀ a, result.toText = some a → isStrkey a = true

/-- A resolution of an input that the schema accepts, or a call that closes a round. -/
def RoundCall.Checked : RoundCall N → Prop
  | .resolveRound input => RoundInputSchema input
  | .closeRound _ => True

/-- Metadata whose choices name users by UUID, and whose payouts name addresses. -/
structure NamedMetadata (metadata : RoundMetadata N) : Prop where
  choices : ∀ p ∈ metadata.playerChoices, isUuid p.userId = true
  payouts : ∀ resolution ∈ metadata.resolution, ∀ p ∈ resolution.payouts, isStrkey p.userId = true

/-- A log that names a user by UUID. -/
def NamedLog (log : EliminationLog) : Prop := isUuid log.userId = true

theorem RoundCall.Checked.stores {c : RoundCall N} (h : c.Checked) :
    c.Stores NamedMetadata NamedLog NamesAddress := by
  cases c with
  | resolveRound input =>
    refine ⟨fun ids payouts poolBalances hpayouts =>
      ⟨fun p hp => (h.playerChoices p hp).userId, ?_⟩, h.allActivePlayerIds⟩
    intro resolution hresolution p hp
    obtain rfl := Option.some.inj hresolution
    obtain ⟨result, htext, hname⟩ := hpayouts p hp
    exact hname p.userId htext
  | closeRound roundId => exact trivial

theorem ne_of_isUuid_of_isObjectId {s u : String} (hs : isUuid s = true)
    (hu : isObjectId u = true) : s ≠ u := by
  rintro rfl
  have h36 := length_of_isUuid hs
  unfold isObjectId at hu
  simp only [Bool.and_eq_true, decide_eq_true_eq] at hu
  omega

theorem ne_of_isStrkey_of_isObjectId {s u : String} (hs : isStrkey s = true)
    (hu : isObjectId u = true) : s ≠ u := by
  rintro rfl
  have h56 := length_of_isStrkey hs
  unfold isObjectId at hu
  simp only [Bool.and_eq_true, decide_eq_true_eq] at hu
  omega

omit [JsNumber N] in
/-- Nobody with an id of MongoDB has played. -/
theorem Stored.stranger (h : Stored NamedMetadata NamedLog d) {userId : String}
    (hid : isObjectId userId = true) : d.Stranger userId where
  choices roundId row hrow := by
    unfold RoundRow.hasChoice RoundRow.choices
    cases hmetadata : row.metadata with
    | none => rfl
    | some metadata =>
      refine List.any_eq_false.mpr fun p hp heq => ?_
      have huuid := (h.rounds roundId row hrow metadata hmetadata).choices p hp
      exact ne_of_isUuid_of_isObjectId huuid hid (of_decide_eq_true heq)
  logs log hlog := ne_of_isUuid_of_isObjectId (h.logs log hlog) hid

omit [JsNumber N] in
/-- Nobody is paid but addresses. -/
theorem Stored.unpaying (h : Stored NamedMetadata NamedLog d) {userId : String}
    (hid : ∀ a, isStrkey a = true → a ≠ userId) : d.Unpaying userId := by
  intro roundId row hrow payout hpayout
  unfold RoundRow.payouts at hpayout
  cases hmetadata : row.metadata with
  | none =>
    rw [hmetadata] at hpayout
    cases hpayout
  | some metadata =>
    rw [hmetadata, Option.bind_some] at hpayout
    cases hresolution : metadata.resolution with
    | none =>
      rw [hresolution] at hpayout
      cases hpayout
    | some resolution =>
      rw [hresolution] at hpayout
      have hM := h.rounds roundId row hrow metadata hmetadata
      exact hid _ (hM.payouts resolution hresolution payout hpayout)

omit [JsNumber N] in
/-- Who is listed on the leaderboard is named by UUID. -/
theorem Stored.isUuid_of_mem (h : Stored NamedMetadata NamedLog d) {numeric : N → ℚ}
    {ids : List String} {userId : String} (hmem : userId ∈ d.allUserIds numeric ids) :
    isUuid userId = true := by
  unfold Database.allUserIds at hmem
  rw [List.mem_dedup, List.mem_append] at hmem
  obtain hmem | hmem := hmem
  · obtain ⟨choice, hchoice, rfl⟩ := List.mem_map.mp hmem
    obtain ⟨row, hrow, hrow'⟩ := List.mem_flatMap.mp hchoice
    obtain ⟨c, hc, rfl⟩ := List.mem_map.mp hrow'
    obtain ⟨⟨id, -, hid⟩, -⟩ := Database.mem_resolvedRounds.mp hrow
    unfold RoundRow.choices at hc
    cases hmetadata : row.metadata with
    | none =>
      rw [hmetadata] at hc
      cases hc
    | some metadata =>
      rw [hmetadata] at hc
      exact (h.rounds id row hid metadata hmetadata).choices c hc
  · obtain ⟨log, hlog, rfl⟩ := List.mem_map.mp hmem
    exact h.logs log (List.mem_of_mem_filter hlog)

/-- In every run of calls with inputs that the schema accepts, on a platform where `get_winner`
    answers addresses if anything: the profile of every user shows no game, no win, no yield and no
    rank, and nobody on the leaderboard has any yield, so that it ranks by the games won. -/
theorem unscored_of_run [DecidableEq N] [DecidableLT N] (hnew : w.db.Fresh)
    (hrun : Run (System.Step (RoundCall.program svc) (namingPlatform net NamesAddress)) (.idle w)
      tr t)
    (hchecked : ∀ e ∈ tr, ∀ i c, e.2 = .start i c → c.Checked) (ids : List String)
    (numeric : N → ℚ) (toFixed : N → String) :
    (∀ userId, isObjectId userId = true →
      aggregateStats toFixed t.shared.db ids userId = ⟨0, 0, toFixed ((0 : ℕ) : N), none⟩) ∧
    ∀ rows, Ranking.Ranks RawRow.key (t.shared.db.standings numeric ids) rows →
      (∀ row ∈ rows, row.totalYield = 0) ∧
      Ranking.Ranks (·.arenasWon) (t.shared.db.standings numeric ids) rows := by
  have hstored : Stored NamedMetadata NamedLog t.shared.db :=
    Stored.of_run (S := namingPlatform net NamesAddress) (fun h => h) (fun h => h) hnew hrun
      fun e he i c hc => (hchecked e he i c hc).stores
  refine ⟨fun userId hid => ?_, fun rows hrows => ?_⟩
  · have hstranger := hstored.stranger hid
    have hunpaying := hstored.unpaying fun a ha => ne_of_isStrkey_of_isObjectId ha hid
    unfold aggregateStats Database.countGamesPlayed
    rw [Database.countGamesWon_eq, hstranger.eliminationArenas_eq, hstranger.choiceArenas_eq,
      hunpaying.sumYieldEarned_eq, hunpaying.computeRank_eq]
    rfl
  · have hzero : ∀ row ∈ rows, row.totalYield = 0 := by
      intro row hrow
      obtain ⟨userId, hmem, user, -, rfl⟩ := Database.mem_standings.mp (hrows.perm.mem_iff.mp hrow)
      have huuid := hstored.isUuid_of_mem hmem
      exact (hstored.unpaying fun a ha =>
        (ne_of_isUuid_of_isStrkey huuid ha).symm).totalYield_eq user
    refine ⟨hzero, hrows.perm, ?_⟩
    refine hrows.sorted.imp_of_mem fun {a b} ha hb hle => ?_
    unfold RawRow.key at hle
    rw [hzero a ha, hzero b hb] at hle
    exact (Prod.Lex.toLex_le_toLex.mp hle).elim (fun h => absurd h (lt_irrefl _)) And.right

theorem unscored_of_run_sample : ∃ tr t,
    Run (System.Step (RoundCall.program sendingService) (namingPlatform sendingNet NamesAddress))
      (.idle samplePlatform) tr t ∧ stateOf t sampleRound = some .RESOLVED ∧
      (∀ userId, isObjectId userId = true → aggregateStats (fun _ => "0.00") t.shared.db
        [sampleRound] userId = ⟨0, 0, "0.00", none⟩) ∧
      ∀ rows, Ranking.Ranks RawRow.key (t.shared.db.standings id [sampleRound]) rows →
        (∀ row ∈ rows, row.totalYield = 0) ∧
        Ranking.Ranks (·.arenasWon) (t.shared.db.standings id [sampleRound]) rows := by
  have hreplay : ∃ r ∈ replay ((workingNamed sendingNet NamesAddress).perform
      (RoundCall.program sendingService)) sampleResolving [] (.idle samplePlatform),
      stateOf r.2 sampleRound = some .RESOLVED := by
    decide +kernel
  obtain ⟨tr, t, hrun, hstarts, hstate⟩ :=
    (workingNamed sendingNet NamesAddress).exists_run_of_starts
      (A := (· = .resolveRound sampleInput)) (T := fun _ t => stateOf t sampleRound = _)
      (fun m hm => starts_sampleResolving hm) hreplay
  refine ⟨tr, t, hrun, hstate, unscored_of_run sampleDatabase_fresh hrun ?_ _ _ _⟩
  intro e he i c hc
  obtain rfl := hstarts e he i c hc
  exact sampleInput_accepted

end InverseArena.Backend
