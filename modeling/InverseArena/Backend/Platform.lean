import InverseArena.Backend.RoundService

/-!
# What the round service runs on

The database, the arena contract and the RPC server between them. A read of the
contract is answered as the contract stands, or not at all. The service calls
`resolve_round` with one argument, and the host refuses a call with another number
of arguments than the contract declares.

Results:
* `submitOnChainResolve_follows`: what a submission that returns has needed.
* `resolveRound_follows`, `closeRound_follows`: in which order the service speaks
  to the database, and with what, whatever it is answered.
-/

namespace InverseArena.Backend

open Async

variable {N H : Type}

/-! ## The shared state -/

/-- The arena contract on its network. -/
structure Network (H : Type) where
  env : Arena.Env H
  /-- How many arguments `resolve_round` of the deployed contract declares. The arena
      contracts of the repository declare none. -/
  resolveRoundArity : ℕ
  /-- How the SDK writes an address. -/
  strkey : Address → String
  strkey_wellFormed : ∀ a, isStrkey (strkey a) = true
  /-- The account of `ARENA_ADMIN_SECRET`, which signs for itself. -/
  signer : Address
  signer_authorizes : env.mayAuthorize signer

/-- The database and the arena. -/
structure Platform (N H : Type) where
  db : Database N
  arena : Arena.World H

variable (net : Network H)

/-- A page of the player list as the SDK converts it. -/
def entriesOf (s : Arena.ArenaStorage) (page : ℕ) : List (String × Arena.PlayerState) :=
  (Arena.getPlayers s page).map fun entry => (net.strkey entry.1, entry.2)

/-- `resolve_round` as the service would call it now, with the round number. -/
def resolveNow (arena : Arena.World H) : Result Arena.ArenaError (Arena.World H) :=
  if net.resolveRoundArity = 1 then Arena.exec net.env [net.signer] .resolveRound arena
  else .error .trap

theorem resolveNow_eq_ok {arena arena' : Arena.World H} :
    resolveNow net arena = .ok arena' ↔ net.resolveRoundArity = 1 ∧
      Arena.exec net.env [net.signer] .resolveRound arena = .ok arena' := by
  unfold resolveNow
  split_ifs with harity
  · exact (and_iff_right harity).symm
  · exact iff_of_false (fun h => nomatch h) fun h => harity h.1

/-- By the time a request about the submitted transaction is answered, a ledger may
    have included it. -/
def Included (arena arena' : Arena.World H) : Prop :=
  arena' = arena ∨ resolveNow net arena = .ok arena'

/-- The results a simulation can have: any simulation can fail. The arena has no
    entry point `get_winner`, and nothing is assumed of what another contract
    under that name would return. -/
def Simulates (arena : Arena.World H) (contractId : String) (call : ContractCall) :
    Simulation → Prop
  | .error _ => True
  | .empty => True
  | .success result => contractId = net.strkey net.env.here ∧
    match call with
    | .resolve_round _ => ∃ arena', resolveNow net arena = .ok arena'
    | .get_players page => result = some (.entries (entriesOf net arena.storage page))
    | .get_winner => True

/-- What serving a request of the `i`-th call does. -/
def serves (i : ℕ) : (q : Request N) → Platform N H → Answer N q → Platform N H → Prop
  | .findRound roundId, w, a, w' => a = w.db.rounds roundId ∧ w' = w
  | .updateRound roundId state, w, _, w' =>
    ∃ db, w.db.updateRound roundId state = some db ∧ w' = { w with db := db }
  | .beginTransaction, w, _, w' => w' = { w with db := w.db.beginTransaction i }
  | .claimRound roundId state metadata, w, count, w' =>
    ∃ db, w.db.claimRound i roundId state metadata = some (count, db) ∧ w' = { w with db := db }
  | .createLogs logs, w, _, w' =>
    ∃ db, w.db.createLogs i logs = some db ∧ w' = { w with db := db }
  | .commit, w, _, w' => ∃ db, w.db.commit i = some db ∧ w' = { w with db := db }
  | .rollback, w, _, w' => w' = { w with db := w.db.rollback i }
  | .countActiveArenas, w, _, w' => w' = w
  | .invalidateArenaStats _, w, _, w' => w' = w
  | .getAccount _, w, _, w' => w' = w
  | .simulateTransaction contractId call, w, a, w' =>
    Simulates net w.arena contractId call a ∧ w' = w
  | .sendTransaction _ _, w, _, w' => ∃ arena, Included net w.arena arena ∧ w' = { w with arena }
  | .getTransaction _, w, _, w' => ∃ arena, Included net w.arena arena ∧ w' = { w with arena }

/-- What happens besides: the database gives up a transaction, or something
    happens on the chain. -/
inductive PlatformMove (H : Type) where
  | abort (i : ℕ)
  | arena (a : Arena.Action H)

def Platform.Moves : PlatformMove H → Platform N H → Platform N H → Prop
  | .abort i, w, w' => w' = { w with db := w.db.rollback i }
  | .arena a, w, w' => ∃ arena, Arena.Step net.env w.arena a arena ∧ w' = { w with arena := arena }

/-- The database, the RPC server and the chain. -/
def platform : Server (Answer N) (Platform N H) (PlatformMove H) where
  serves := serves net
  moves := Platform.Moves net

/-! ## The order of the statements -/

/-- Where a call stands with its transaction: `closing` is a call that makes none. -/
inductive Place where
  | closing
  | outside
  | opened
  | claimed (roundId : String) (eliminated : List String)
  | logged (roundId : String) (eliminated : List String)
  | failing
  | committed
  | ended

/-- What a call may ask for; `E` says of which rounds it may record which
    eliminations. -/
def Place.allows (E : String → List String → Prop) (g : Place) : Request N → Prop
  | .updateRound _ state => g = .closing ∧ state = .CLOSED
  | .beginTransaction => g = .outside
  | .claimRound roundId state metadata => g = .opened ∧ state = .RESOLVED ∧
    ∃ resolution, metadata.resolution = some resolution ∧ E roundId resolution.eliminatedPlayers
  | .createLogs logs =>
    ∃ roundId eliminated, g = .claimed roundId eliminated ∧
      logs = eliminationLogs roundId eliminated
  | .commit => (∃ roundId, g = .claimed roundId []) ∨ ∃ roundId eliminated,
      g = .logged roundId eliminated
  | _ => True

/-- The eliminations in a round's metadata. -/
def RoundMetadata.eliminated (metadata : RoundMetadata N) : List String :=
  (metadata.resolution.map (·.eliminatedPlayers)).getD []

/-- Where a reply leaves a call. -/
def Place.next (g : Place) : (q : Request N) → Except RoundError (Answer N q) → Place
  | .beginTransaction, .ok _ => .opened
  | .beginTransaction, .error _ => .ended
  | .claimRound roundId _ metadata, .ok count =>
    if count = 0 then .failing else .claimed roundId metadata.eliminated
  | .claimRound _ _ _, .error _ => .failing
  | .createLogs _, .ok _ =>
    match g with
    | .claimed roundId eliminated => .logged roundId eliminated
    | _ => .failing
  | .createLogs _, .error _ => .failing
  | .commit, .ok _ => .committed
  | .commit, .error _ => .ended
  | .rollback, _ => .ended
  | _, _ => g

/-- The addresses in a page of the player list are written as such. -/
def Expected : (q : Request N) → Answer N q → Prop
  | .simulateTransaction _ (.get_players _), .success (some (.entries players)) =>
    ∀ entry ∈ players, isStrkey entry.1 = true
  | _, _ => True

/-- How a call speaks to the database. -/
def statements (E : String → List String → Prop) : Protocol (Answer N) RoundError Place where
  allowed := Place.allows E
  answers := Expected
  next := Place.next

variable {E : String → List String → Prop}

theorem serves_expected {i : ℕ} {q : Request N} {w w' : Platform N H} {a : Answer N q}
    (h : (platform net).serves i q w a w') : (statements E).answers q a := by
  cases q with
  | simulateTransaction contractId call =>
    cases call with
    | get_players page =>
      match a, h with
      | .success (some (.entries players)), h =>
        obtain ⟨⟨-, heq⟩, -⟩ := h
        cases heq
        intro entry hentry
        obtain ⟨e, -, rfl⟩ := List.mem_map.mp hentry
        exact net.strkey_wellFormed e.1
      | .success (some .null), _ => exact trivial
      | .success (some (.text _)), _ => exact trivial
      | .success none, _ => exact trivial
      | .error _, _ => exact trivial
      | .empty, _ => exact trivial
    | _ => exact trivial
  | _ => exact trivial

/-! ## What the programs ask for -/

/-- A request that changes nothing. -/
def Request.isRead : Request N → Bool
  | .findRound _ | .countActiveArenas | .invalidateArenaStats _ | .getAccount _
  | .simulateTransaction _ _ => true
  | .updateRound _ _ | .beginTransaction | .claimRound _ _ _ | .createLogs _ | .commit
  | .rollback | .sendTransaction _ _ | .getTransaction _ => false

/-- A request that neither belongs to a transaction nor changes a round. -/
def Request.isPlain : Request N → Bool
  | .sendTransaction _ _ | .getTransaction _ => true
  | q => q.isRead

/-- The protocol leaves requests of a kind free at `g`. -/
structure FreeAt {γ : Type} (kind : Request N → Bool) (P : Protocol (Answer N) RoundError γ)
    (g : γ) : Prop where
  allowed : ∀ q : Request N, kind q = true → P.allowed g q
  next : ∀ (q : Request N) a, kind q = true → P.next g q a = g

/-- The protocol leaves the plain requests free. -/
structure FreeOf {γ : Type} (P : Protocol (Answer N) RoundError γ) : Prop where
  allowed : ∀ g (q : Request N), q.isPlain = true → P.allowed g q
  next : ∀ g (q : Request N) a, q.isPlain = true → P.next g q a = g

theorem statements_free : FreeOf (statements E : Protocol (Answer N) RoundError Place) where
  allowed g q hq := by
    cases q with
    | updateRound | beginTransaction | claimRound | createLogs | commit | rollback => cases hq
    | _ => exact trivial
  next g q a hq := by
    cases q with
    | updateRound | beginTransaction | claimRound | createLogs | commit | rollback => cases hq
    | _ => rfl

/-- What `computePayouts` pays to a winner. -/
def prize [JsNumber N] (playerChoices : List (PlayerChoice N)) (eliminatedPlayers : List String)
    (oracleYield : N) (winner : String) : N :=
  let eliminatedStake := ((playerChoices.filter (·.userId ∈ eliminatedPlayers)).map
    (·.stake)).foldl (· + ·) ((0 : ℕ) : N)
  ((playerChoices.find? (·.userId = winner)).map (·.stake)).getD ((0 : ℕ) : N) +
    eliminatedStake * (((1 : ℕ) : N) + oracleYield / ((100 : ℕ) : N))

section FreeAt

variable {γ : Type} {P : Protocol (Answer N) RoundError γ} {g : γ} (svc : Service)

/-- The rule for a free request. -/
theorem FreeAt.bind {kind : Request N → Bool} (hP : FreeAt kind P g) {q : Request N}
    (hq : kind q = true) {α : Type} {f : Answer N q → Program N α}
    {Q : γ → Except RoundError α → Prop}
    (hok : ∀ a, P.answers q a → (f a).Follows P g Q) (herr : ∀ e, Q g (.error e)) :
    (ask q >>= f).Follows P g Q := by
  rw [follows_bind]
  refine ⟨hP.allowed _ hq, fun a ha => ?_, fun e => ?_⟩
  · show (f a).Follows P (P.next g q (.ok a)) Q
    rw [hP.next _ _ hq]
    exact hok a ha
  · show Q (P.next g q (.error e)) (.error e)
    rw [hP.next _ _ hq]
    exact herr e

theorem pollTransaction_follows (hP : FreeAt Request.isPlain P g) (hash : String)
    (roundNumber attempts : ℕ) :
    (pollTransaction svc hash roundNumber attempts : Program N ℕ).Follows P g
      fun g' _ => g' = g := by
  induction attempts with
  | zero => exact rfl
  | succ attempts ih =>
    refine hP.bind rfl (fun status _ => ?_) fun e => rfl
    cases status with
    | SUCCESS => exact rfl
    | FAILED errorResultXdr => exact rfl
    | NOT_FOUND => exact ih

/-- The SDK can assemble the transaction, and a simulation of it can succeed. -/
def Sendable (svc : Service) (P : Protocol (Answer N) RoundError γ) (contractId : String)
    (roundNumber : ℕ) : Prop :=
  svc.assembleTransaction ≠ none ∧ ∃ result,
    P.answers (.simulateTransaction contractId (.resolve_round roundNumber)) (.success result)

/-- Only a transaction that is sendable is sent, and only then does the submission
    return. -/
theorem submitOnChainResolve_follows {contractId : String} {roundNumber : ℕ}
    (hread : FreeAt Request.isRead P g)
    (hsend : Sendable svc P contractId roundNumber → FreeAt Request.isPlain P g) :
    (submitOnChainResolve svc contractId roundNumber : Program N ℕ).Follows P g
      fun g' r => g' = g ∧ ((∃ n, r = .ok n) → Sendable svc P contractId roundNumber) := by
  unfold submitOnChainResolve
  rw [follows_bind, follows_orThrow]
  refine ⟨fun signerSecret _ => ?_, fun _ => ⟨rfl, by simp⟩⟩
  show (done _ >>= _).Follows _ _ _
  rw [follows_bind]
  cases svc.publicKey signerSecret with
  | error e => exact ⟨rfl, by simp⟩
  | ok signer =>
    refine hread.bind rfl (fun _ _ => ?_) fun e => ⟨rfl, by simp⟩
    show (done _ >>= _).Follows _ _ _
    rw [follows_bind]
    cases svc.contract contractId with
    | error e => exact ⟨rfl, by simp⟩
    | ok _ =>
      refine hread.bind rfl (fun simulated hsimulated => ?_) fun e => ⟨rfl, by simp⟩
      match simulated, hsimulated with
      | .error message, _ => exact ⟨rfl, by simp⟩
      | .empty, _ => exact ⟨rfl, by simp⟩
      | .success result, hsimulated =>
        show (orThrow _ _ >>= _).Follows _ _ _
        rw [follows_bind, follows_orThrow]
        refine ⟨fun prepared hprepared => ?_, fun _ => ⟨rfl, by simp⟩⟩
        have hsendable : Sendable svc P contractId roundNumber :=
          ⟨by simp [hprepared], result, hsimulated⟩
        show (done _ >>= _).Follows _ _ _
        rw [follows_bind]
        cases prepared with
        | error e => exact ⟨rfl, by simp⟩
        | ok _ =>
          refine (hsend hsendable).bind rfl (fun sendResult _ => ?_) fun e => ⟨rfl, by simp⟩
          show (if _ then _ else _ : Program N ℕ).Follows _ _ _
          split_ifs with hsent
          · refine (pollTransaction_follows svc (hsend hsendable) _ _ _).mono fun _ _ h => ?_
            exact ⟨h, fun _ => hsendable⟩
          · exact ⟨rfl, by simp⟩

end FreeAt

section Free

variable {γ : Type} {P : Protocol (Answer N) RoundError γ} (hP : FreeOf P) (svc : Service) (g : γ)

include hP

theorem FreeOf.plain : FreeAt Request.isPlain P g := ⟨hP.allowed g, hP.next g⟩

theorem FreeOf.read : FreeAt Request.isRead P g := by
  have hplain : ∀ q : Request N, q.isRead = true → q.isPlain = true := by
    intro q hq
    cases q with
    | sendTransaction | getTransaction => rfl
    | _ => exact hq
  exact ⟨fun q hq => hP.allowed g q (hplain q hq), fun q a hq => hP.next g q a (hplain q hq)⟩

theorem FreeOf.bind {g : γ} {q : Request N} (hq : q.isPlain = true) {α : Type}
    {f : Answer N q → Program N α} {Q : γ → Except RoundError α → Prop}
    (hok : ∀ a, P.answers q a → (f a).Follows P g Q) (herr : ∀ e, Q g (.error e)) :
    (ask q >>= f).Follows P g Q :=
  (hP.plain g).bind hq hok herr

theorem simulateViewCall_follows (contractId : String) (call : ContractCall) :
    (simulateViewCall svc contractId call : Program N Native).Follows P g fun g' r => g' = g ∧
      ∀ result, r = .ok result →
        P.answers (.simulateTransaction contractId call) (.success (some result)) := by
  unfold simulateViewCall
  refine hP.bind rfl (fun _ _ => ?_) fun e => ⟨rfl, fun _ h => nomatch h⟩
  show (done _ >>= _).Follows _ _ _
  rw [follows_bind]
  cases svc.contract contractId with
  | error e => exact ⟨rfl, fun _ h => nomatch h⟩
  | ok _ =>
    refine hP.bind rfl (fun simulated hanswers => ?_) fun e => ⟨rfl, fun _ h => nomatch h⟩
    match simulated, hanswers with
    | .error message, _ => exact ⟨rfl, fun _ h => nomatch h⟩
    | .empty, _ => exact ⟨rfl, fun _ h => nomatch h⟩
    | .success none, _ => exact ⟨rfl, fun _ h => nomatch h⟩
    | .success (some result), hanswers =>
      refine ⟨rfl, fun result' hresult => ?_⟩
      cases hresult
      exact hanswers

theorem getOnChainActivePlayerIds_follows (contractId : String) (page : ℕ) :
    (getOnChainActivePlayerIds svc contractId page : Program N _).Follows P g fun g' r => g' = g ∧
      ∃ ids, r = .ok ids ∧ ∀ id ∈ ids, ∃ players, (∃ entry ∈ players, entry.1 = id) ∧
        P.answers (.simulateTransaction contractId (.get_players page))
          (.success (some (.entries players))) := by
  unfold getOnChainActivePlayerIds
  rw [follows_handle, follows_bind]
  refine (simulateViewCall_follows hP svc g contractId (.get_players page)).mono ?_
  rintro g' r ⟨rfl, hanswers⟩
  match r, hanswers with
  | .error e, _ => exact ⟨rfl, [], rfl, fun _ h => nomatch h⟩
  | .ok .null, _ => exact ⟨rfl, [], rfl, fun _ h => nomatch h⟩
  | .ok (.text s), _ => exact ⟨rfl, [], rfl, fun _ h => nomatch h⟩
  | .ok (.entries players), hanswers =>
    refine ⟨rfl, _, rfl, fun id hid => ⟨players, ?_, hanswers _ rfl⟩⟩
    obtain ⟨entry, hentry, rfl⟩ := List.mem_map.mp hid
    exact ⟨entry, List.mem_of_mem_filter hentry, rfl⟩

theorem getOnChainWinner_follows (contractId : String) :
    (getOnChainWinner svc contractId : Program N _).Follows P g fun g' r => g' = g ∧
      ∃ winner, r = .ok winner ∧ ∀ a ∈ winner, ∃ result, result.toText = some a ∧
        P.answers (.simulateTransaction contractId .get_winner) (.success (some result)) := by
  unfold getOnChainWinner
  rw [follows_handle, follows_bind]
  refine (simulateViewCall_follows hP svc g contractId .get_winner).mono ?_
  rintro g' r ⟨rfl, hanswers⟩
  cases r with
  | error e => exact ⟨rfl, none, rfl, fun _ h => nomatch h⟩
  | ok result => exact ⟨rfl, _, rfl, fun a ha => ⟨result, ha, hanswers result rfl⟩⟩

/-- A winner that was read gets its prize, and without one nobody gets anything. -/
theorem computePayouts_follows [JsNumber N] (contractId : String)
    (playerChoices : List (PlayerChoice N)) (eliminatedPlayers : List String) (oracleYield : N) :
    (computePayouts svc contractId playerChoices eliminatedPlayers oracleYield).Follows P g
      fun g' r => g' = g ∧ ∃ payouts, r = .ok payouts ∧ (payouts = [] ∨ ∃ result a,
        result.toText = some a ∧
        P.answers (.simulateTransaction contractId .get_winner) (.success (some result)) ∧
        payouts = [⟨a, prize playerChoices eliminatedPlayers oracleYield a⟩]) := by
  unfold computePayouts
  rw [follows_bind]
  refine (getOnChainWinner_follows hP svc g contractId).mono ?_
  rintro g' r ⟨rfl, winner, rfl, hwinner⟩
  dsimp only
  split
  · exact ⟨rfl, _, rfl, .inl rfl⟩
  · exact ⟨rfl, _, rfl, .inl rfl⟩
  · rename_i a _
    obtain ⟨result, htext, hanswers⟩ := hwinner a rfl
    exact ⟨rfl, _, rfl, .inr ⟨result, a, htext, hanswers, rfl⟩⟩

/-- The rule for a resolution: all it does besides plain requests is what it does
    in its transaction. -/
theorem resolveRound_follows_of [JsNumber N] (input : RoundInput N) {Q : γ → Prop}
    (hatomic : ∀ (ids : List String) (payouts : List (Payout N)) (poolBalances : String → Option N),
      (∀ id ∈ ids, ∃ players, (∃ entry ∈ players, entry.1 = id) ∧
        P.answers (.simulateTransaction input.arenaContractId (.get_players 0))
          (.success (some (.entries players)))) →
      (payouts = [] ∨ ∃ result a, result.toText = some a ∧
        P.answers (.simulateTransaction input.arenaContractId .get_winner)
          (.success (some result)) ∧
        payouts = [⟨a, prize input.playerChoices (input.allActivePlayerIds.filter (· ∉ ids))
          input.oracleYield a⟩]) →
      (resolveAtomically input.roundId .RESOLVED
        ⟨input.allActivePlayerIds.filter (· ∉ ids), payouts, poolBalances⟩
        ⟨input.playerChoices, input.oracleYield, input.randomSeed, some
          ⟨input.allActivePlayerIds.filter (· ∉ ids), payouts, poolBalances⟩⟩).Follows P g
        fun g' r => (∃ a, r = .ok a) → Q g') :
    (resolveRound svc input).Follows P g fun g' r => (∃ a, r = .ok a) → Q g' := by
  unfold resolveRound
  refine hP.bind rfl (fun found _ => ?_) fun e h => nomatch h
  rw [follows_bind, follows_orThrow]
  refine ⟨fun round _ => ?_, fun _ h => nomatch h⟩
  show (check _ _ >>= _).Follows _ _ _
  rw [follows_bind, follows_check]
  refine ⟨fun _ => ?_, fun _ h => nomatch h⟩
  show (submitOnChainResolve _ _ _ >>= _).Follows _ _ _
  rw [follows_bind]
  refine (submitOnChainResolve_follows svc (hP.read g) fun _ => hP.plain g).mono ?_
  rintro g' r ⟨rfl, -⟩
  cases r with
  | error e => exact fun h => nomatch h
  | ok _ =>
    show (getOnChainActivePlayerIds _ _ _ >>= _).Follows _ _ _
    rw [follows_bind]
    refine (getOnChainActivePlayerIds_follows hP svc g' _ _).mono ?_
    rintro g' r ⟨rfl, ids, rfl, hids⟩
    show (computePayouts _ _ _ _ _ >>= _).Follows _ _ _
    rw [follows_bind]
    refine (computePayouts_follows hP svc g' _ _ _ _).mono ?_
    rintro g' r ⟨rfl, payouts, rfl, hpayouts⟩
    show (resolveAtomically _ _ _ _ >>= _).Follows _ _ _
    rw [follows_bind]
    refine (hatomic ids payouts _ hids hpayouts).mono fun g' r hplace => ?_
    cases r with
    | error e => exact fun h => nomatch h
    | ok _ =>
      have hQ := hplace ⟨_, rfl⟩
      refine hP.bind rfl (fun _ _ => ?_) fun e h => nomatch h
      rw [follows_bind, follows_handle]
      have hnext : ∀ a, Q (P.next g' (.invalidateArenaStats round.arenaId) a) := by
        intro a
        rw [hP.next _ _ _ rfl]
        exact hQ
      exact ⟨hP.allowed _ _ rfl, fun a _ _ => hnext _, fun e _ => hnext _⟩

end Free

variable (svc : Service)

theorem claimAndLog_follows (roundId : String) (resolution : RoundResolution N)
    (metadata : RoundMetadata N) (hE : E roundId resolution.eliminatedPlayers) :
    (claimAndLog roundId .RESOLVED resolution metadata).Follows (statements E) .opened
      fun g' r => r = .ok () → (∃ id, g' = .claimed id []) ∨ ∃ id l, g' = .logged id l := by
  unfold claimAndLog
  rw [follows_bind]
  refine ⟨⟨rfl, rfl, resolution, rfl, hE⟩, fun count _ => ?_, fun e h => nomatch h⟩
  show (check _ _ >>= _).Follows _ _ _
  rw [follows_bind, follows_check]
  refine ⟨fun hcount => ?_, fun _ h => nomatch h⟩
  have hplace : Place.next .opened (.claimRound roundId .RESOLVED
      { metadata with resolution := some resolution }) (.ok count) =
      .claimed roundId resolution.eliminatedPlayers := if_neg hcount
  show (if _ then _ else _ : Program N Unit).Follows _ _ _
  split_ifs with hlength
  · refine ⟨⟨roundId, _, hplace, rfl⟩, fun written _ _ => .inr
      ⟨roundId, resolution.eliminatedPlayers, ?_⟩, fun e h => nomatch h⟩
    exact congrArg (fun g => Place.next g
      (.createLogs (eliminationLogs roundId resolution.eliminatedPlayers)) (.ok written)) hplace
  · intro _
    refine .inl ⟨roundId, ?_⟩
    have hnil : resolution.eliminatedPlayers = [] := by
      rw [← List.length_eq_zero_iff]
      omega
    rw [← hnil]
    exact hplace

theorem transaction_follows {α : Type} (body : Program N α)
    (hbody : body.Follows (statements E) .opened fun g' r => (∃ a, r = .ok a) →
      (∃ id, g' = .claimed id []) ∨ ∃ id l, g' = .logged id l) :
    (transaction body).Follows (statements E) .outside
      fun g' r => (∃ a, r = .ok a) → g' = .committed := by
  unfold transaction
  rw [follows_bind]
  refine ⟨rfl, fun _ _ => ?_, fun e h => nomatch h⟩
  show (tryCatch body _ >>= _).Follows _ _ _
  rw [follows_bind, follows_handle]
  refine hbody.mono ?_
  intro g' r hplace
  cases r with
  | ok a =>
    show (ask _ >>= _).Follows _ _ _
    rw [follows_bind]
    exact ⟨hplace ⟨a, rfl⟩, fun _ _ _ => rfl, fun e h => nomatch h⟩
  | error e =>
    show (tryCatch (ask _) _ >>= _).Follows _ _ _
    rw [follows_bind, follows_handle]
    have hthrown : ∀ g : Place, (∃ a, (.error e : Except RoundError α) = .ok a) →
        g = .committed := fun _ h => nomatch h
    exact ⟨trivial, fun _ _ => hthrown _, fun _ => hthrown _⟩

/-- A resolution begins a transaction, claims the round as RESOLVED, logs the
    eliminations it has claimed and commits; if it returns, it has committed. -/
theorem resolveRound_follows [JsNumber N] (input : RoundInput N)
    (hE : ∀ ids : List String, (∀ id ∈ ids, isStrkey id = true) →
      E input.roundId (input.allActivePlayerIds.filter (· ∉ ids))) :
    (resolveRound svc input).Follows (statements E) .outside
      fun g' r => (∃ a, r = .ok a) → g' = .committed := by
  refine resolveRound_follows_of statements_free svc _ input fun ids payouts _ hids _ => ?_
  have hstrkeys : ∀ id ∈ ids, isStrkey id = true := by
    intro id hid
    obtain ⟨players, ⟨entry, hentry, rfl⟩, hexpected⟩ := hids id hid
    exact hexpected entry hentry
  refine transaction_follows _ ((claimAndLog_follows _ _ _ (hE ids hstrkeys)).mono ?_)
  rintro g' r hplace ⟨_, rfl⟩
  exact hplace rfl

/-- A call that closes a round makes no transaction. -/
theorem closeRound_follows (roundId : String) :
    (closeRound roundId : Program N RoundState).Follows (statements E) .closing
      fun g' _ => g' = .closing := by
  unfold closeRound
  rw [follows_bind]
  refine ⟨trivial, fun found _ => ?_, fun e => rfl⟩
  show (orThrow found _ >>= _).Follows _ _ _
  rw [follows_bind, follows_orThrow]
  refine ⟨fun round _ => ?_, fun _ => rfl⟩
  show (check _ _ >>= _).Follows _ _ _
  rw [follows_bind, follows_check]
  refine ⟨fun _ => ?_, fun _ => rfl⟩
  show (ask _ >>= _).Follows _ _ _
  rw [follows_bind]
  exact ⟨⟨rfl, rfl⟩, fun _ _ => rfl, fun e => rfl⟩

end InverseArena.Backend
