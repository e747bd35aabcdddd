import InverseArena.Arena.RoundClock
import InverseArena.Arena.Survivors
import InverseArena.Backend.Calls
import InverseArena.Backend.Eliminations

/-!
# Retrying a resolution

`resolveRound` submits `resolve_round` before it updates the database. The service as
it is cannot submit, so a round that is resolved on the chain, by whoever may call
it, stays as it is in the database: a retry fails like the call before it.

With a service that could submit, a call might fail between the two. The arena has
then left the Active state, and the simulation of `resolve_round` rejects the retry
before it reaches the database.

Results:
* `recovered_retry_iff`: when a retry that can submit ends with the round resolved and
  the eliminations of the chain recorded.
* `recovery_iff`: the service as it is recovers nothing.
* `recovery_iff_of_works`: exactly what a service that can submit recovers.
-/

namespace InverseArena.Backend

open Async Transition

variable {N H : Type}

/-- The environment of the service lets it submit to the arena. -/
structure Service.Works (svc : Service) (net : Network H) (contractId : String) : Prop where
  signer : ∃ secret key, svc.adminSecret = some secret ∧ svc.publicKey secret = .ok key
  contract : svc.contract contractId = .ok ()
  assembles : svc.assembleTransaction = some (.ok ())
  here : contractId = net.strkey net.env.here

/-- A working platform, for the `i`-th call. -/
def answerNow (net : Network H) (i : ℕ) :
    (q : Request N) → Platform N H → Except RoundError (Answer N q) × Platform N H :=
  answering (work net .prompt i) (.rejected "")

/-- A call of `resolveRound` on a working platform. -/
def retry [JsNumber N] (svc : Service) (net : Network H) (i : ℕ) (input : RoundInput N)
    (w : Platform N H) : Except RoundError (RoundResolution N) × Platform N H :=
  (resolveRound svc input).run (answerNow net i) w

/-- The round is RESOLVED, and the eliminations of the chain are stored with it and
    logged. -/
def Recovered (net : Network H) (input : RoundInput N) (w : Platform N H) : Prop :=
  ∃ row metadata resolution, w.db.rounds input.roundId = some row ∧ row.state = .RESOLVED ∧
    row.metadata = some metadata ∧ metadata.resolution = some resolution ∧
    (∀ id, id ∈ resolution.eliminatedPlayers ↔
      id ∈ input.allActivePlayerIds ∧ EliminatedOnChain net w id) ∧
    ∀ log ∈ eliminationLogs input.roundId resolution.eliminatedPlayers, log ∈ w.db.eliminationLogs

/-! ## A call on a working platform -/

variable {svc : Service} {net : Network H} {i : ℕ} {w : Platform N H} {input : RoundInput N}

theorem run_getAccount (publicKey : String) :
    (ask (.getAccount publicKey) : Program N Unit).run (answerNow net i) w = (.ok (), w) := rfl

theorem run_simulateTransaction (contractId : String) (call : ContractCall) :
    (ask (.simulateTransaction contractId call) : Program N Simulation).run (answerNow net i) w =
      (.ok (simulateNow net w.arena contractId call), w) := rfl

theorem run_sendTransaction (contractId : String) (call : ContractCall) :
    (ask (.sendTransaction contractId call) : Program N SendResponse).run (answerNow net i) w =
      (.ok ⟨.PENDING, "hash", none⟩, w) := rfl

theorem run_getTransaction {hash : String} {arena : Arena.World H}
    (h : resolveNow net w.arena = .ok arena) :
    (ask (.getTransaction hash) : Program N TransactionStatus).run (answerNow net i) w =
      (.ok .SUCCESS, { w with arena := arena }) := by
  have hinclude : includeNow net .prompt w.arena = (.SUCCESS, arena) := by
    unfold includeNow
    dsimp only
    rw [h]
  show (Except.ok (includeNow net .prompt w.arena).1,
    ({ w with arena := (includeNow net .prompt w.arena).2 } : Platform N H)) = _
  rw [hinclude]

/-- The submission succeeds if the arena accepts `resolve_round`, and is rejected
    by the simulation otherwise. -/
theorem run_submitOnChainResolve {contractId : String} (hsvc : svc.Works net contractId)
    (roundNumber : ℕ) :
    (submitOnChainResolve svc contractId roundNumber).run (answerNow net i) w =
      match resolveNow net w.arena with
      | .ok arena => (.ok roundNumber, { w with arena := arena })
      | .error _ => (.error (.simulationFailed "HostError"), w) := by
  obtain ⟨⟨secret, key, hsecret, hkey⟩, hcontract, hassembles, hhere⟩ := hsvc
  obtain ⟨polls, hpolls⟩ : ∃ n, svc.roundConfirmMaxPolls = n + 1 :=
    ⟨_, (Nat.succ_pred_eq_of_pos svc.roundConfirmMaxPolls_pos).symm⟩
  have hsim : simulateNow net w.arena contractId (.resolve_round roundNumber) =
      match resolveNow net w.arena with
      | .ok _ => .success none
      | .error _ => .error "HostError" := if_pos hhere
  unfold submitOnChainResolve
  rw [hsecret]
  refine (run_bind_ok rfl).trans ?_
  rw [hkey]
  refine (run_bind_ok rfl).trans ?_
  refine (run_bind_ok (run_getAccount key)).trans ?_
  rw [hcontract]
  refine (run_bind_ok rfl).trans ?_
  refine (run_bind_ok (run_simulateTransaction _ _)).trans ?_
  rw [hsim]
  cases hresolve : resolveNow net w.arena with
  | error e => rfl
  | ok arena =>
    rw [hassembles]
    refine (run_bind_ok rfl).trans ?_
    refine (run_bind_ok rfl).trans ?_
    refine (run_bind_ok (run_sendTransaction _ _)).trans ?_
    refine (congrArg (fun p => run _ p w) (if_pos (.inl rfl))).trans ?_
    rw [hpolls]
    exact run_bind_ok (run_getTransaction hresolve)

theorem run_simulateViewCall {contractId : String} (hsvc : svc.Works net contractId)
    (call : ContractCall) :
    (simulateViewCall svc contractId call).run (answerNow net i) w =
      match simulateNow net w.arena contractId call with
      | .success (some result) => (.ok result, w)
      | .success none => (.error (.viewEmpty call), w)
      | .empty => (.error (.viewEmpty call), w)
      | .error message => (.error (.viewFailed call message), w) := by
  unfold simulateViewCall
  refine (run_bind_ok (run_getAccount _)).trans ?_
  rw [hsvc.contract]
  refine (run_bind_ok rfl).trans ?_
  refine (run_bind_ok (run_simulateTransaction _ _)).trans ?_
  generalize simulateNow net w.arena contractId call = simulated
  match simulated with
  | .error message => rfl
  | .empty => rfl
  | .success none => rfl
  | .success (some result) => rfl

/-- The addresses of the active players on the first page. -/
theorem run_activePlayerIds {contractId : String} (hsvc : svc.Works net contractId) :
    ∃ ids, (getOnChainActivePlayerIds svc contractId 0).run (answerNow net i) w = (.ok ids, w) := by
  refine ⟨((entriesOf net w.arena.storage 0).filter (·.2.active)).map (·.1), ?_⟩
  have hview : (simulateViewCall svc contractId (.get_players 0)).run (answerNow net i) w =
      (.ok (.entries (entriesOf net w.arena.storage 0)), w) := by
    have hsim : simulateNow net w.arena contractId (.get_players 0) = _ := if_pos hsvc.here
    rw [run_simulateViewCall hsvc, hsim]
  unfold getOnChainActivePlayerIds
  rw [run_handle, run_bind_ok hview]
  rfl

theorem run_computePayouts [JsNumber N] {contractId : String} (hsvc : svc.Works net contractId)
    (playerChoices : List (PlayerChoice N)) (eliminatedPlayers : List String) (oracleYield : N) :
    (computePayouts svc contractId playerChoices eliminatedPlayers oracleYield).run
      (answerNow net i) w = (.ok [], w) := by
  have hwinner : (getOnChainWinner svc contractId).run (answerNow net i) w = (.ok none, w) := by
    have hview : (simulateViewCall svc contractId .get_winner).run (answerNow net i) w =
        (.error (.viewFailed .get_winner "HostError"), w) := by
      have hsim : simulateNow net w.arena contractId .get_winner = _ := if_pos hsvc.here
      rw [run_simulateViewCall hsvc, hsim]
    unfold getOnChainWinner
    rw [run_handle, run_bind_error hview]
    rfl
  unfold computePayouts
  exact run_bind_ok hwinner

theorem run_claimRound {roundId : String} {state : RoundState} {metadata : RoundMetadata N}
    {count : ℕ} {db : Database N}
    (h : w.db.claimRound i roundId state metadata = some (count, db)) :
    (ask (.claimRound roundId state metadata) : Program N ℕ).run (answerNow net i) w =
      (.ok count, { w with db := db }) :=
  run_answering (congrArg (Option.map _) h)

theorem run_createLogs {logs : List EliminationLog} {db : Database N}
    (h : w.db.createLogs i logs = some db) :
    (ask (.createLogs logs) : Program N Unit).run (answerNow net i) w =
      (.ok (), { w with db := db }) :=
  run_answering (congrArg (Option.map _) h)

theorem run_commit {db : Database N} (h : w.db.commit i = some db) :
    (ask .commit : Program N Unit).run (answerNow net i) w = (.ok (), { w with db := db }) :=
  run_answering (congrArg (Option.map _) h)

/-- A resolution of a round that is still resolvable and free goes through when all
    the eliminated are known users. -/
theorem run_resolveAtomically {roundId : String} {row : RoundRow N}
    (hrow : w.db.rounds roundId = some row) (hres : row.state.resolvable = true)
    (hfree : w.db.rowLock roundId = none) (resolution : RoundResolution N)
    (metadata : RoundMetadata N)
    (husers : ∀ id ∈ resolution.eliminatedPlayers, (w.db.users id).isSome = true) :
    ∃ db, (resolveAtomically roundId .RESOLVED resolution metadata).run (answerNow net i) w =
      (.ok (), { w with db := db }) := by
  have hbody : ∃ db tx, db.transactions i = some tx ∧
      (claimAndLog roundId .RESOLVED resolution metadata).run (answerNow net i)
        { w with db := w.db.beginTransaction i } = (.ok (), { w with db := db }) := by
    obtain ⟨resolved, hresolved⟩ : ∃ resolved : RoundMetadata N,
        resolved = { metadata with resolution := some resolution } := ⟨_, rfl⟩
    obtain ⟨db, hdb⟩ : ∃ db, db = (w.db.beginTransaction i).hold i ⟨none, []⟩ roundId
        { row with state := .RESOLVED, metadata := some resolved } := ⟨_, rfl⟩
    have htx : db.transactions i ≠ none := by
      rw [hdb]
      unfold Database.hold
      simp
    have hclaim : (w.db.beginTransaction i).claimRound i roundId .RESOLVED
        { metadata with resolution := some resolution } = some (1, db) := by
      rw [hdb, ← hresolved]
      exact Database.claimRound_eq_hold (Function.update_self ..) hfree hrow hres
    obtain ⟨tx, htx⟩ := Option.ne_none_iff_exists'.mp htx
    unfold claimAndLog
    rw [run_bind_ok (run_claimRound (w := { w with db := w.db.beginTransaction i }) hclaim)]
    by_cases hlength : resolution.eliminatedPlayers.length > 0
    · have hknown : ∀ log ∈ eliminationLogs roundId resolution.eliminatedPlayers,
          (db.rounds log.roundId).isSome ∧ (db.users log.userId).isSome := by
        intro log hlog
        obtain ⟨userId, huser, rfl⟩ := List.mem_map.mp hlog
        rw [hdb]
        refine ⟨?_, husers userId huser⟩
        show (w.db.rounds roundId).isSome = true
        rw [hrow]
        rfl
      obtain ⟨db', hdb', hlogs⟩ : ∃ db' : Database N, (∃ tx, db'.transactions i = some tx) ∧
          db.createLogs i (eliminationLogs roundId resolution.eliminatedPlayers) = some db' :=
        ⟨_, ⟨_, Function.update_self ..⟩,
          Database.createLogs_eq_some.mpr ⟨tx, htx, hknown, rfl⟩⟩
      obtain ⟨tx', htx'⟩ := hdb'
      refine ⟨db', tx', htx', ?_⟩
      refine (run_bind_ok rfl).trans ?_
      rw [if_pos hlength]
      exact run_createLogs (w := { w with db := db }) hlogs
    · refine ⟨db, tx, htx, ?_⟩
      refine (run_bind_ok rfl).trans ?_
      rw [if_neg hlength]
      rfl
  obtain ⟨db, tx, htx, hbody⟩ := hbody
  have hcommit : db.commit i = some ((db.apply tx).release i) :=
    Database.commit_eq_some.mpr ⟨tx, htx, rfl⟩
  have hcaught : (tryCatch (claimAndLog roundId .RESOLVED resolution metadata) fun e => do
      tryCatch (ask .rollback) fun _ => pure ()
      throw e).run (answerNow net i) { w with db := w.db.beginTransaction i } =
        (.ok (), { w with db := db }) := by
    rw [run_handle, hbody]
  refine ⟨(db.apply tx).release i, ?_⟩
  unfold resolveAtomically transaction
  refine (run_bind_ok (a := ()) (t := { w with db := w.db.beginTransaction i }) rfl).trans ?_
  refine (run_bind_ok hcaught).trans ?_
  exact run_bind_ok (run_commit (w := { w with db := db }) hcommit)

theorem run_findRound (roundId : String) :
    (ask (.findRound roundId) : Program N (Option (RoundRow N))).run (answerNow net i) w =
      (.ok (w.db.rounds roundId), w) := rfl

/-! ## Recovered rounds -/

/-- The round is still to be resolved, the arena accepts `resolve_round` again, and
    has then eliminated everybody in the request. -/
def ResolvesAgain (net : Network H) (input : RoundInput N) (w : Platform N H) : Prop :=
  (∃ row ∈ w.db.rounds input.roundId, row.state.resolvable = true) ∧
    ∃ arena, resolveNow net w.arena = .ok arena ∧
      ∀ id ∈ input.allActivePlayerIds, EliminatedOnChain net { w with arena := arena } id

theorem EliminatedOnChain.congr {w' : Platform N H} (husers : w'.db.users = w.db.users)
    (harena : w'.arena = w.arena) (id : String) :
    EliminatedOnChain net w' id ↔ EliminatedOnChain net w id := by
  unfold EliminatedOnChain
  rw [husers, harena]

/-- Whom the chain has eliminated the database knows. -/
theorem EliminatedOnChain.known {w' : Platform N H} {ids : List String}
    (h : ∀ id ∈ ids, EliminatedOnChain net w' id) (husers : w'.db.users = w.db.users) :
    ∀ id ∈ ids, (w.db.users id).isSome = true := by
  intro id hid
  obtain ⟨user, huser, -⟩ := h id hid
  rw [husers] at huser
  exact Option.isSome_of_mem huser

theorem Recovered.not_resolvable {row : RoundRow N} (h : Recovered net input w)
    (hrow : w.db.rounds input.roundId = some row) : row.state.resolvable = false := by
  obtain ⟨row', metadata, resolution, hrow', hresolved, -⟩ := h
  obtain rfl : row' = row := Option.some.inj (hrow'.symm.trans hrow)
  rw [hresolved]
  rfl

/-- A resolution that records everybody agrees with the chain when everybody has
    been eliminated there. -/
theorem Resolves.recovered_iff {E : String → List String → Prop} {w' : Platform N H}
    (h : Resolves E w.db w'.db input.roundId input.allActivePlayerIds) :
    Recovered net input w' ↔ ∀ id ∈ input.allActivePlayerIds, EliminatedOnChain net w' id := by
  obtain ⟨row, metadata, resolution, hrounds, hresolved, hmeta, hresolution, helim⟩ := h.rounds
  have hrow : w'.db.rounds input.roundId = some row := by rw [hrounds, Function.update_self]
  constructor
  · rintro ⟨row', metadata', resolution', hrow', -, hmeta', hresolution', hiff, -⟩ id hid
    obtain rfl : row = row' := Option.some.inj (hrow.symm.trans hrow')
    obtain rfl : metadata = metadata' := Option.some.inj (hmeta.symm.trans hmeta')
    obtain rfl : resolution = resolution' := Option.some.inj (hresolution.symm.trans hresolution')
    rw [← helim] at hid
    exact ((hiff id).mp hid).2
  · intro hall
    refine ⟨row, metadata, resolution, hrow, hresolved, hmeta, hresolution, fun id => ?_, ?_⟩
    · rw [helim]
      exact ⟨fun hid => ⟨hid, hall id hid⟩, And.left⟩
    · intro log hlog
      rw [helim] at hlog
      rw [h.eliminationLogs]
      exact List.mem_append_right _ hlog

theorem RoundState.resolvable_iff {state : RoundState} :
    state.resolvable = true ↔ state = .OPEN ∨ state = .CLOSED := by
  cases state with
  | _ => decide

/-- The check of the round's state lets a resolvable round through. -/
theorem run_checkState {row : RoundRow N} (hres : row.state.resolvable = true) :
    (check (row.state = .OPEN ∨ row.state = .CLOSED) (.alreadyInState row.state) :
      Program N Unit).run (answerNow net i) w = (.ok (), w) := by
  rw [run_check, if_pos (RoundState.resolvable_iff.mp hres)]

/-! ## Retries -/

variable [JsNumber N]

/-- A call for a round that is missing or resolved changes nothing. -/
theorem retry_of_not_resolvable
    (h : ∀ row, w.db.rounds input.roundId = some row → row.state.resolvable = false) :
    (retry svc net i input w).2 = w := by
  unfold retry resolveRound
  rw [run_bind_ok (run_findRound input.roundId)]
  cases hrow : w.db.rounds input.roundId with
  | none => rfl
  | some row =>
    have hstate := h row hrow
    have hcheck : (check (row.state = .OPEN ∨ row.state = .CLOSED)
        (.alreadyInState row.state) : Program N Unit).run (answerNow net i) w =
          (.error (.alreadyInState row.state), w) := by
      rw [run_check, if_neg]
      rintro (hs | hs)
      · rw [hs] at hstate
        cases hstate
      · rw [hs] at hstate
        cases hstate
    have hfound : (orThrow (some row) .roundNotFound : Program N (RoundRow N)).run
        (answerNow net i) w = (.ok row, w) := rfl
    rw [run_bind_ok hfound, run_bind_error hcheck]

/-- A call while the arena rejects `resolve_round` changes nothing. -/
theorem retry_of_rejected (hsvc : svc.Works net input.arenaContractId) {row : RoundRow N}
    (hrow : w.db.rounds input.roundId = some row) (hres : row.state.resolvable = true)
    {e : Fault Arena.ArenaError} (hreject : resolveNow net w.arena = .error e) :
    retry svc net i input w = (.error (.simulationFailed "HostError"), w) := by
  have hsubmit := run_submitOnChainResolve (i := i) (w := w) hsvc row.roundNumber
  rw [hreject] at hsubmit
  unfold retry resolveRound
  rw [run_bind_ok (run_findRound input.roundId), hrow]
  refine (run_bind_ok rfl).trans ?_
  exact (run_bind_ok (run_checkState hres)).trans (run_bind_error hsubmit)

/-- A call while the arena accepts `resolve_round` returns, if all the players of the
    request are known users. -/
theorem retry_of_accepted (hsvc : svc.Works net input.arenaContractId) {row : RoundRow N}
    (hrow : w.db.rounds input.roundId = some row) (hres : row.state.resolvable = true)
    (hfree : w.db.rowLock input.roundId = none) {arena : Arena.World H}
    (haccept : resolveNow net w.arena = .ok arena)
    (husers : ∀ id ∈ input.allActivePlayerIds, (w.db.users id).isSome = true) :
    (∃ a, (retry svc net i input w).1 = .ok a) ∧ (retry svc net i input w).2.arena = arena := by
  have hsubmit := run_submitOnChainResolve (i := i) (w := w) hsvc row.roundNumber
  rw [haccept] at hsubmit
  obtain ⟨ids, hids⟩ := run_activePlayerIds (i := i) (w := { w with arena := arena }) hsvc
  obtain ⟨eliminated, heliminated⟩ : ∃ eliminated : List String,
      eliminated = input.allActivePlayerIds.filter (· ∉ ids) := ⟨_, rfl⟩
  obtain ⟨resolution, hresolution⟩ : ∃ resolution : RoundResolution N, resolution =
      ⟨eliminated, [], computePoolBalances input.playerChoices eliminated⟩ := ⟨_, rfl⟩
  obtain ⟨db, hdb⟩ := @run_resolveAtomically N H net i { w with arena := arena } input.roundId row
    hrow hres hfree resolution
    ⟨input.playerChoices, input.oracleYield, input.randomSeed, some resolution⟩
    (by
      intro id hid
      rw [hresolution, heliminated] at hid
      exact husers id (List.mem_of_mem_filter hid))
  rw [hresolution, heliminated] at hdb
  have hrun : ∃ a, retry svc net i input w = (.ok a, { db := db, arena := arena }) := by
    unfold retry resolveRound
    rw [run_bind_ok (run_findRound input.roundId), hrow]
    have hfound : (orThrow (some row) .roundNotFound : Program N (RoundRow N)).run
        (answerNow net i) w = (.ok row, w) := rfl
    rw [run_bind_ok hfound, run_bind_ok (run_checkState hres), run_bind_ok hsubmit,
      run_bind_ok hids, run_bind_ok (run_computePayouts hsvc _ _ _), run_bind_ok hdb]
    exact ⟨_, rfl⟩
  obtain ⟨a, hrun⟩ := hrun
  rw [hrun]
  exact ⟨⟨a, rfl⟩, rfl⟩

/-! ## When a retry recovers -/

theorem retry_exec : ∃ rs, Exec (platform net) i (resolveRound svc input) w rs
    (retry svc net i input w).1 (retry svc net i input w).2 :=
  exec_run (S := platform net) (work_serves net) (.rejected "") (resolveRound svc input) w

/-- A retry that the arena accepts recovers the round when it has eliminated
    everybody in the request. -/
theorem recovered_of_accepted (hinput : RoundInputSchema input)
    (hsvc : svc.Works net input.arenaContractId) (hnew : w.db.transactions i = none)
    (hlocks : w.db.LocksHeld) (hfree : w.db.rowLock input.roundId = none) {row : RoundRow N}
    (hrow : w.db.rounds input.roundId = some row) (hres : row.state.resolvable = true)
    {arena : Arena.World H} (haccept : resolveNow net w.arena = .ok arena) :
    Recovered net input (retry svc net i input w).2 ↔
      ∀ id ∈ input.allActivePlayerIds, EliminatedOnChain net { w with arena := arena } id := by
  obtain ⟨rs, hexec⟩ := @retry_exec N H svc net i w input _
  obtain ⟨-, hstored⟩ | ⟨-, ⟨e, herror⟩, hsame⟩ := records_all hinput hnew hlocks hexec
  · refine hstored.recovered_iff.trans ⟨fun hall id hid => ?_, fun hall id hid => ?_⟩
    · obtain ⟨-, harena⟩ := retry_of_accepted (i := i) hsvc hrow hres hfree haccept
        (EliminatedOnChain.known hall hstored.users)
      exact (EliminatedOnChain.congr (w := { w with arena := arena }) hstored.users harena id).mp
        (hall id hid)
    · obtain ⟨-, harena⟩ := retry_of_accepted (i := i) hsvc hrow hres hfree haccept
        (EliminatedOnChain.known hall rfl)
      exact (EliminatedOnChain.congr (w := { w with arena := arena }) hstored.users harena id).mpr
        (hall id hid)
  · refine iff_of_false (fun hrec => ?_) fun hall => ?_
    · have hkept : (retry svc net i input w).2.db.rounds input.roundId = some row := by
        rw [hsame.rounds]
        exact hrow
      rw [hrec.not_resolvable hkept] at hres
      cases hres
    · obtain ⟨⟨a, hok⟩, -⟩ := retry_of_accepted (i := i) hsvc hrow hres hfree haccept
        (EliminatedOnChain.known hall rfl)
      cases hok.symm.trans herror

/-- A retry on a working platform leaves a round recovered that was so before, or
    that it resolves again. -/
theorem recovered_retry_iff (hinput : RoundInputSchema input)
    (hsvc : svc.Works net input.arenaContractId) (hnew : w.db.transactions i = none)
    (hlocks : w.db.LocksHeld) (hfree : w.db.rowLock input.roundId = none) :
    Recovered net input (retry svc net i input w).2 ↔
      Recovered net input w ∨ ResolvesAgain net input w := by
  by_cases hrow : ∃ row ∈ w.db.rounds input.roundId, row.state.resolvable = true
  · obtain ⟨row, hrow', hres⟩ := id hrow
    have hnot : ¬ Recovered net input w := by
      intro hrec
      rw [hrec.not_resolvable hrow'] at hres
      cases hres
    cases hresolve : resolveNow net w.arena with
    | error e =>
      rw [retry_of_rejected hsvc hrow' hres hresolve]
      refine iff_of_false hnot ?_
      rintro (hrec | ⟨-, arena, haccept, -⟩)
      · exact hnot hrec
      · rw [hresolve] at haccept
        cases haccept
    | ok arena =>
      rw [recovered_of_accepted hinput hsvc hnew hlocks hfree hrow' hres hresolve]
      constructor
      · exact fun hall => .inr ⟨hrow, arena, hresolve, hall⟩
      · rintro (hrec | ⟨-, arena', haccept, hall⟩)
        · exact absurd hrec hnot
        · cases hresolve.symm.trans haccept
          exact hall
  · have hnone : ∀ row, w.db.rounds input.roundId = some row → row.state.resolvable = false := by
      intro row hrow'
      cases hres : row.state.resolvable with
      | false => rfl
      | true => exact absurd ⟨row, hrow', hres⟩ hrow
    rw [retry_of_not_resolvable hnone]
    exact ⟨.inl, fun h => h.elim id fun hagain => absurd hagain.1 hrow⟩

/-! ## Whole runs -/

/-- `resolve_round` takes effect on the chain, at whoever's call. -/
def TakesEffect (net : Network H) (s u : RoundSystem N H) : Prop :=
  ∃ auths, Arena.exec net.env auths .resolveRound s.shared.arena = .ok u.shared.arena

/-- In a run from `w`, `resolve_round` takes effect between `s` and `u`, and the `i`-th
    call, which has been started to resolve the round, does not return: it throws, or
    it is never answered again. -/
structure FailedAfterEffect (svc : Service) (net : Network H) (i : ℕ) (input : RoundInput N)
    (w : Platform N H) (before : List (RoundSystem N H × RoundEvent N H)) (s u : RoundSystem N H)
    (after : List (RoundSystem N H × RoundEvent N H)) (t : RoundSystem N H) : Prop where
  reached : Run (RoundStep svc net) (.idle w) before s
  effect : TakesEffect net s u ∧ ∃ ev, RoundStep svc net s ev u
  since : Run (RoundStep svc net) u after t
  started : ∃ e ∈ after ++ before, e.2 = .start i (.resolveRound input)
  failed : t.running i ≠ some (.done (.ok ()))

/-- No round is started on the chain. -/
def NoneStarted (tr : List (RoundSystem N H × RoundEvent N H)) : Prop :=
  ∀ e ∈ tr, ∀ a, e.2 = .moved (.arena a) → a.started = none

variable {s t u : RoundSystem N H} {tr before after : List (RoundSystem N H × RoundEvent N H)}

theorem FailedAfterEffect.run (h : FailedAfterEffect svc net i input w before s u after t) :
    (∃ tr, Run (RoundStep svc net) (.idle w) tr u) ∧
      ∃ tr, Run (RoundStep svc net) (.idle w) tr t := by
  obtain ⟨-, ev, hstep⟩ := h.effect
  exact ⟨⟨_, h.reached.snoc hstep⟩, _, (h.reached.snoc hstep).append h.since⟩

/-- However a call of the service as it is fails after `resolve_round` has taken
    effect: a retry leaves the round as it finds it. No call of the service stores
    what the chain has decided, so a round that was to be resolved when the run began
    is never recovered. -/
theorem recovery_iff (hsend : Unsendable svc net)
    (hfail : FailedAfterEffect svc net i input w before s u after t) (j : ℕ) :
    (Recovered net input (retry svc net j input t.shared).2 ↔ Recovered net input t.shared) ∧
    (w.db.Unresolved input.roundId → ¬ Recovered net input (retry svc net j input t.shared).2) := by
  obtain ⟨rs, hexec⟩ := @retry_exec N H svc net j t.shared input _
  obtain ⟨-, hsame⟩ := exec_of_unsendable hsend hexec
  rw [hsame]
  refine ⟨Iff.rfl, fun hunresolved hrec => ?_⟩
  obtain ⟨-, tr, hrun⟩ := hfail.run
  obtain ⟨row, hrow, hres⟩ := (onlyClosed_of_run hsend hrun).unresolved hunresolved
  rw [hrec.not_resolvable hrow] at hres
  cases hres

theorem wellFormed_of_roundRun (hw : Arena.WellFormed w.arena)
    (hrun : Run (RoundStep svc net) (.idle w) tr t) : Arena.WellFormed t.shared.arena :=
  hrun.invariant (I := fun t => Arena.WellFormed t.shared.arena)
    (fun _ _ _ hw hs => RoundStep.wellFormed hw hs) hw

omit [JsNumber N] in
/-- `resolve_round` leaves the Active state. -/
theorem TakesEffect.not_active (h : TakesEffect net s u) (hw : Arena.WellFormed s.shared.arena) :
    ¬ Arena.InState u.shared.arena .Active := by
  obtain ⟨auths, heffect⟩ := h
  obtain ⟨config, hc, hstate⟩ := Arena.resolveRound_state hw heffect
  rintro ⟨config', hc', hactive⟩
  obtain rfl : config = config' := Option.some.inj (hc.symm.trans hc')
  rw [hactive] at hstate
  obtain hstate | hstate := hstate
  · cases hstate
  · cases hstate

/-- The arena stays out of the Active state until a round is started. -/
theorem not_active_of_run (hw : Arena.WellFormed u.shared.arena)
    (hidle : ¬ Arena.InState u.shared.arena .Active) (hrun : Run (RoundStep svc net) u tr t)
    (hnone : NoneStarted tr) :
    Arena.WellFormed t.shared.arena ∧ ¬ Arena.InState t.shared.arena .Active := by
  refine hrun.invariant_of_forall (I := fun t : RoundSystem N H =>
      Arena.WellFormed t.shared.arena ∧ ¬ Arena.InState t.shared.arena .Active)
    (C := fun _ (ev : RoundEvent N H) => ∀ a, ev = .moved (.arena a) → a.started = none)
    ?_ hnone ⟨hw, hidle⟩
  rintro s ev s' ⟨hws, hs⟩ hquiet hstep
  refine ⟨hstep.wellFormed hws, fun hactive => hs ?_⟩
  obtain heq | hresolve | ⟨a, rfl, harena⟩ := hstep.arena
  · rw [heq] at hactive
    exact hactive
  · exact hresolve.active_of_active hws rfl hactive
  · exact harena.active_of_active hws (hquiet a rfl) hactive

/-- With a service that can submit, a retry on a working platform ends with the round
    recovered exactly when the failed call had recovered it after all, or when the
    arena accepts `resolve_round` again and then has eliminated everybody. The latter
    takes a new round on the chain. -/
theorem recovery_iff_of_works (hinput : RoundInputSchema input)
    (hsvc : svc.Works net input.arenaContractId) (hidle : ∀ i, w.db.transactions i = none)
    {outside : H} {now : ℕ} {played : List (Arena.World H × Arena.Action H)}
    (harena : Run (Arena.Step net.env) (.fresh outside now) played w.arena)
    (hfail : FailedAfterEffect svc net i input w before s u after t) {j : ℕ}
    (hj : t.running j = none) (hfree : t.shared.db.rowLock input.roundId = none) :
    (Recovered net input (retry svc net j input t.shared).2 ↔
      Recovered net input t.shared ∨ ResolvesAgain net input t.shared) ∧
    (NoneStarted after → ¬ ResolvesAgain net input t.shared) := by
  obtain ⟨⟨tr, hrun⟩, tr', hrun'⟩ := hfail.run
  have hw := Arena.wellFormed_of_run harena
  constructor
  · obtain ⟨gs, htidy, hgs⟩ := Guarded.absent (tidy_of_run hidle hrun') hj
    exact recovered_retry_iff hinput hsvc (htidy.absent j hgs) htidy.locked hfree
  · rintro hnone ⟨-, arena, haccept, -⟩
    have hidle' := hfail.effect.1.not_active (wellFormed_of_roundRun hw hfail.reached)
    obtain ⟨hwt, hnot⟩ :=
      not_active_of_run (wellFormed_of_roundRun hw hrun) hidle' hfail.since hnone
    obtain ⟨config, hc, hactive, -⟩ :=
      Arena.resolveRound_cases hwt ((resolveNow_eq_ok net).mp haccept).2
    exact hnot ⟨config, hc, hactive⟩

example : sendingService.Works sendingNet sampleInput.arenaContractId where
  signer := ⟨"secret", _, rfl, rfl⟩
  contract := rfl
  assembles := rfl
  here := rfl

/-! ## A round resolved by hand -/

/-- The sample resolution when it starts. -/
def sampleStart : RoundSystem ℚ Arena.VaultState :=
  ⟨samplePlatform, Function.update (fun _ => none) 0
    (some ((RoundCall.resolveRound sampleInput).program sampleService))⟩

/-- The call has thrown. -/
def hasThrown : Option (Program N Unit) → Bool
  | some (.done (.error _)) => true
  | _ => false

/-- The admin has `resolve_round` executed after the call has read the round; then the
    call loads its account, and its simulation fails. -/
theorem exists_failure : ∃ before s u after t,
    FailedAfterEffect sampleService sampleNet 0 sampleInput samplePlatform before s u after t ∧
      t.running 1 = none ∧
      ((retry sampleService sampleNet 1 sampleInput t.shared).2.db.rounds sampleRound).map
        (·.state) = some .OPEN := by
  have hreplay : ∃ r ∈ replay ((working sampleNet).perform (RoundCall.program sampleService))
      [.serve 0 .prompt] [] sampleStart,
      ∃ e ∈ (working sampleNet).perform (RoundCall.program sampleService)
        (.moved (.arena (.call [⟨10⟩] .resolveRound))) r.2,
      ∃ r' ∈ replay ((working sampleNet).perform (RoundCall.program sampleService))
        [.serve 0 .prompt, .serve 0 .prompt] [] e.2,
      hasThrown (r'.2.running 0) = true ∧ (r'.2.running 1).isNone = true ∧
        ((retry sampleService sampleNet 1 sampleInput r'.2.shared).2.db.rounds sampleRound).map
          (·.state) = some .OPEN := by
    decide +kernel
  obtain ⟨⟨before, s⟩, hread, ⟨ev, u⟩, hresolved, ⟨after, t⟩, hsimulated, hthrown, hnew, hopen⟩ :=
    hreplay
  have hstart : RoundStep sampleService sampleNet (.idle samplePlatform)
      (.start 0 (.resolveRound sampleInput)) sampleStart := .start rfl
  have heffect : TakesEffect sampleNet s u := by
    obtain ⟨w, hmove, heq⟩ := Option.map_eq_some_iff.mp hresolved
    cases heq
    obtain ⟨arena, harena, rfl⟩ := (working sampleNet).move_sound hmove
    cases harena with
    | call _ hexec => exact ⟨_, hexec⟩
  refine ⟨before ++ [(_, _)], s, u, after, t, ⟨.append (.snoc .nil hstart) ?_,
    ⟨heffect, ev, ?_⟩, ?_, ?_, ?_⟩, Option.isNone_iff_eq_none.mp hnew, hopen⟩
  · exact Run.of_replay ((working sampleNet).perform_step) _ .nil hread
  · exact (working sampleNet).perform_step _ s ev u hresolved
  · exact Run.of_replay ((working sampleNet).perform_step) _ .nil hsimulated
  · exact ⟨_, List.mem_append_right _ (List.mem_append_right _ (List.mem_singleton_self _)), rfl⟩
  · intro hok
    rw [hok] at hthrown
    cases hthrown

/-- The round has been resolved on the chain and stays OPEN. -/
theorem not_recovers :
    ¬ ∀ (input : RoundInput ℚ) (s u t : RoundSystem ℚ Arena.VaultState)
        (before after : List (RoundSystem ℚ Arena.VaultState × RoundEvent ℚ Arena.VaultState)),
      RoundInputSchema input →
      FailedAfterEffect sampleService sampleNet 0 input samplePlatform before s u after t →
      t.running 1 = none →
      Recovered sampleNet input (retry sampleService sampleNet 1 input t.shared).2 := by
  intro hclaim
  obtain ⟨before, s, u, after, t, hfail, hnew, hopen⟩ := exists_failure
  obtain ⟨row, -, -, hrow, hresolved, -⟩ :=
    hclaim sampleInput s u t before after sampleInput_accepted hfail hnew
  have hstate : ((retry sampleService sampleNet 1 sampleInput t.shared).2.db.rounds
      sampleRound).map (·.state) = some row.state := congrArg _ hrow
  rw [hopen, hresolved] at hstate
  cases hstate

theorem recovery_iff_sample : ∃ before s u after t,
    FailedAfterEffect sampleService sampleNet 0 sampleInput samplePlatform before s u after t ∧
    (Recovered sampleNet sampleInput (retry sampleService sampleNet 1 sampleInput t.shared).2 ↔
      Recovered sampleNet sampleInput t.shared) ∧
    (samplePlatform.db.Unresolved sampleRound →
      ¬ Recovered sampleNet sampleInput (retry sampleService sampleNet 1 sampleInput t.shared).2) := by
  obtain ⟨before, s, u, after, t, hfail, -⟩ := exists_failure
  exact ⟨before, s, u, after, t, hfail, recovery_iff (.inl rfl) hfail 1⟩

end InverseArena.Backend
