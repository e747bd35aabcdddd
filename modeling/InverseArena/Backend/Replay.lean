import InverseArena.Backend.Platform
import InverseArena.Vault.Reference
import Mathlib.Data.Rat.Defs

/-!
# A working platform

The platform as it answers when nothing fails, which lets calls of the round
service be executed.

Results:
* `work_serves`: a working platform answers what the platform may answer.
-/

namespace InverseArena.Backend

open Async Transition

variable {N H : Type}

/-! ## Serving requests -/

/-- Whether a ledger includes the submitted transaction before it is asked for. -/
inductive Inclusion where
  | prompt
  | late
  deriving DecidableEq

variable (net : Network H)

/-- The answer of a working RPC server to a simulation. -/
def simulateNow (arena : Arena.World H) (contractId : String) (call : ContractCall) : Simulation :=
  if contractId = net.strkey net.env.here then
    match call with
    | .resolve_round _ =>
      match resolveNow net arena with
      | .ok _ => .success none
      | .error _ => .error "HostError"
    | .get_players page => .success (some (.entries (entriesOf net arena.storage page)))
    | .get_winner => .error "HostError"
  else .error "HostError"

/-- The answer of a working RPC server to a query about the transaction, once its
    simulation has succeeded. -/
def includeNow (inclusion : Inclusion) (arena : Arena.World H) :
    TransactionStatus × Arena.World H :=
  match inclusion with
  | .late => (.NOT_FOUND, arena)
  | .prompt =>
    match resolveNow net arena with
    | .ok arena' => (.SUCCESS, arena')
    | .error _ => (.FAILED none, arena)

/-- The answer of a working platform. What the database refuses (a missing row, a
    log of an unknown user) or makes wait has none. -/
def work (inclusion : Inclusion) (i : ℕ) :
    (q : Request N) → Platform N H → Option (Answer N q × Platform N H)
  | .findRound roundId, w => some (w.db.rounds roundId, w)
  | .updateRound roundId state, w =>
    (w.db.updateRound roundId state).map fun db => ((), { w with db := db })
  | .beginTransaction, w => some ((), { w with db := w.db.beginTransaction i })
  | .claimRound roundId state metadata, w =>
    (w.db.claimRound i roundId state metadata).map fun r => (r.1, { w with db := r.2 })
  | .createLogs logs, w => (w.db.createLogs i logs).map fun db => ((), { w with db := db })
  | .commit, w => (w.db.commit i).map fun db => ((), { w with db := db })
  | .rollback, w => some ((), { w with db := w.db.rollback i })
  | .countActiveArenas, w => some (0, w)
  | .invalidateArenaStats _, w => some ((), w)
  | .getAccount _, w => some ((), w)
  | .simulateTransaction contractId call, w => some (simulateNow net w.arena contractId call, w)
  | .sendTransaction _ _, w => some (⟨.PENDING, "hash", none⟩, w)
  | .getTransaction _, w =>
    some ((includeNow net inclusion w.arena).1,
      { w with arena := (includeNow net inclusion w.arena).2 })

theorem simulates_simulateNow (arena : Arena.World H) (contractId : String) (call : ContractCall) :
    Simulates net arena contractId call (simulateNow net arena contractId call) := by
  unfold simulateNow
  split_ifs with hhere
  · cases call with
    | resolve_round roundNumber =>
      dsimp only
      split
      · rename_i arena' hresolve
        exact ⟨hhere, arena', hresolve⟩
      · exact trivial
    | get_players page => exact ⟨hhere, rfl⟩
    | get_winner => exact trivial
  · exact trivial

theorem included_includeNow (inclusion : Inclusion) (arena : Arena.World H) :
    Included net arena (includeNow net inclusion arena).2 := by
  unfold includeNow
  cases inclusion with
  | late => exact .inl rfl
  | prompt =>
    dsimp only
    split
    · rename_i arena' hresolve
      exact .inr hresolve
    · exact .inl rfl

theorem work_serves {inclusion : Inclusion} {i : ℕ} {q : Request N} {w w' : Platform N H}
    {a : Answer N q} (h : work net inclusion i q w = some (a, w')) : serves net i q w a w' := by
  cases q with
  | updateRound roundId state =>
    obtain ⟨db, hdb, heq⟩ := Option.map_eq_some_iff.mp h
    cases heq
    exact ⟨db, hdb, rfl⟩
  | claimRound roundId state metadata =>
    obtain ⟨r, hdb, heq⟩ := Option.map_eq_some_iff.mp h
    cases heq
    exact ⟨r.2, hdb, rfl⟩
  | createLogs logs =>
    obtain ⟨db, hdb, heq⟩ := Option.map_eq_some_iff.mp h
    cases heq
    exact ⟨db, hdb, rfl⟩
  | commit =>
    obtain ⟨db, hdb, heq⟩ := Option.map_eq_some_iff.mp h
    cases heq
    exact ⟨db, hdb, rfl⟩
  | findRound roundId =>
    cases h
    exact ⟨rfl, rfl⟩
  | simulateTransaction contractId call =>
    cases h
    exact ⟨simulates_simulateNow net _ _ _, rfl⟩
  | sendTransaction contractId call =>
    cases h
    exact ⟨_, .inl rfl, rfl⟩
  | getTransaction hash =>
    cases h
    exact ⟨_, included_includeNow net _ _, rfl⟩
  | _ =>
    cases h
    rfl

/-- What happens besides, where it can be computed. -/
def moveNow [DecidablePred net.env.mayAuthorize] :
    PlatformMove H → Platform N H → Option (Platform N H)
  | .abort i, w => some { w with db := w.db.rollback i }
  | .arena (.call auths c), w =>
    if ∀ a ∈ auths, net.env.mayAuthorize a then
      (Arena.exec net.env auths c w.arena).toOption.map fun arena => { w with arena := arena }
    else none
  | .arena (.external _), _ => none
  | .arena (.tick time), w =>
    if w.arena.now ≤ time ∧ time ≤ MachineInt.u64Max then
      some { w with arena := { w.arena with now := time } }
    else none

theorem moveNow_moves [DecidablePred net.env.mayAuthorize] {m : PlatformMove H}
    {w w' : Platform N H} (h : moveNow net m w = some w') : Platform.Moves net m w w' := by
  match m with
  | .abort i =>
    cases h
    rfl
  | .arena (.call auths c) =>
    simp only [moveNow] at h
    split_ifs at h with hauth
    obtain ⟨arena, hexec, rfl⟩ := Option.map_eq_some_iff.mp h
    exact ⟨arena, .call hauth (Fallible.toOption_eq_some.mp hexec), rfl⟩
  | .arena (.external _) => cases h
  | .arena (.tick time) =>
    simp only [moveNow] at h
    split_ifs at h with htime
    cases h
    exact ⟨_, .tick htime.1 htime.2, rfl⟩

/-- A script for the platform: hints tell when ledgers include a transaction. -/
def working [DecidablePred net.env.mayAuthorize] :
    Script (platform net : Server (Answer N) (Platform N H) (PlatformMove H)) Inclusion where
  serve := work net
  move := moveNow net
  serve_sound := work_serves net
  move_sound := moveNow_moves net

/-! ## A sample platform -/

instance : JsNumber ℚ where
  finite _ := True

/-- An address of 55 binary digits; contracts have ids below 10. -/
def sampleStrkey (a : Address) : String :=
  String.ofList ((if a.id < 10 then 'C' else 'G') ::
    (List.range 55).map fun k => if a.id.testBit k then 'B' else 'A')

theorem sampleStrkey_wellFormed (a : Address) : isStrkey (sampleStrkey a) = true := by
  have hdigits : ∀ k ∈ List.range 55, isBase32 (if a.id.testBit k then 'B' else 'A') = true := by
    intro k _
    split_ifs
    · rfl
    · rfl
  unfold sampleStrkey isStrkey
  rw [String.toList_ofList]
  split_ifs with hid
  · simpa using hdigits
  · simpa using hdigits

/-- The reference arena, whose admin 10 is the service's signer. -/
def sampleNet : Network Arena.VaultState where
  env := Arena.reference false
  resolveRoundArity := 0
  strkey := sampleStrkey
  strkey_wellFormed := sampleStrkey_wellFormed
  signer := ⟨10⟩
  signer_authorizes := by
    show 10 ≤ 10
    omega

instance : DecidablePred sampleNet.env.mayAuthorize :=
  inferInstanceAs (DecidablePred (Arena.reference false).mayAuthorize)

/-- The service with the SDK that is locked. -/
def sampleService : Service where
  adminSecret := some "secret"
  publicKey _ := .ok (sampleStrkey ⟨10⟩)
  contract _ := .ok ()
  assembleTransaction := none
  sourcePublicKey := sampleStrkey ⟨20⟩
  roundConfirmMaxPolls := 2
  roundConfirmMaxPolls_pos := by decide

/-- An arena whose `resolve_round` takes the argument that the service passes. -/
def sendingNet : Network Arena.VaultState := { sampleNet with resolveRoundArity := 1 }

instance : DecidablePred sendingNet.env.mayAuthorize :=
  inferInstanceAs (DecidablePred (Arena.reference false).mayAuthorize)

/-- The service with an SDK whose `rpc.Api` has `assembleTransaction`. -/
def sendingService : Service := { sampleService with assembleTransaction := some (.ok ()) }

/-- The ids of a round and of the users with the wallets 11 and 12. -/
def sampleRound : String := "00000000-0000-4000-8000-000000000001"

def sampleUser₁ : String := "00000000-0000-4000-8000-000000000011"

def sampleUser₂ : String := "00000000-0000-4000-8000-000000000012"

/-- The two users have played a round. -/
def sampleInput : RoundInput ℚ :=
  ⟨sampleRound, [⟨sampleUser₁, "heads", 100⟩, ⟨sampleUser₂, "tails", 100⟩],
    [sampleUser₁, sampleUser₂], 0, none, sampleStrkey ⟨0⟩⟩

/-- The round is open in the database, and the users are known. -/
def sampleDatabase : Database ℚ where
  rounds id := if id = sampleRound then some ⟨"arena", 1, .OPEN, none⟩ else none
  users id := if id = sampleUser₁ then some ⟨sampleStrkey ⟨11⟩⟩
    else if id = sampleUser₂ then some ⟨sampleStrkey ⟨12⟩⟩ else none
  eliminationLogs := []
  transactions _ := none
  rowLock _ := none

theorem sampleDatabase_round :
    sampleDatabase.rounds sampleRound = some ⟨"arena", 1, .OPEN, none⟩ := by
  simp [sampleDatabase]

/-- Player 11 has revealed in the first round, player 12 has not, and the round
    can be resolved. -/
def sampleArena : Arena.World Arena.VaultState :=
  ((replay Arena.perform (Arena.sampleGame 100 : List (Arena.Move (Arena.reference false))) []
    (.fresh .sample 0)).map (·.2)).getD (.fresh .sample 0)

def samplePlatform : Platform ℚ Arena.VaultState := ⟨sampleDatabase, sampleArena⟩

theorem sampleInput_accepted : RoundInputSchema sampleInput where
  roundId := by decide
  playerChoices := by
    intro p hp
    simp only [sampleInput, List.mem_cons, List.not_mem_nil, or_false] at hp
    obtain rfl | rfl := hp
    · exact ⟨by decide, .inl rfl, trivial, by decide⟩
    · exact ⟨by decide, .inr rfl, trivial, by decide⟩
  playerChoices_length := by decide
  allActivePlayerIds := by decide
  allActivePlayerIds_length := by decide
  oracleYield := ⟨trivial, by decide, by decide⟩
  randomSeed := fun _ h => nomatch h
  arenaContractId := by decide

end InverseArena.Backend
