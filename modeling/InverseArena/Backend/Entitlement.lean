import InverseArena.Backend.Replay
import InverseArena.Backend.Unsent

/-!
# What the winner is paid

A payout is recorded with the resolution of a round, and the service as it is has none
sent. A service that could submit would not pay either: `computePayouts` reads the
winner with `get_winner`, which is no entry point of the arena contract, and
`getOnChainWinner` takes every failure for a game that is still in progress. Had the
contract such an entry point, the winner would be paid from the choices of the last
round alone.

Results:
* `paysAll_of_run`: a stored resolution pays nobody, or one name that `get_winner`
  has answered, the prize of its own round.
* `never_winnerPaid`: no finished game has the payout of its winner on record.
-/

namespace InverseArena.Backend

open Async Transition

variable {N H : Type}

/-! ## Contracts that answer `get_winner` -/

/-- `get_winner` is answered, if at all, with one of `names`. -/
def Names (names : Native → Prop) : (q : Request N) → Answer N q → Prop
  | .simulateTransaction _ .get_winner, .success (some result) => names result
  | _, _ => True

/-- The platform with a contract that answers `get_winner` with `names`. -/
def namingPlatform (net : Network H) (names : Native → Prop) :
    Server (Answer N) (Platform N H) (PlatformMove H) where
  serves i q w a w' := serves net i q w a w' ∧ Names names q a
  moves := Platform.Moves net

/-! ## What is stored -/

section

variable [JsNumber N]

/-- The resolution pays nobody, or one of `names` the prize of its own round. -/
def Pays (names : Native → Prop) (metadata : RoundMetadata N) : Prop :=
  ∀ resolution ∈ metadata.resolution, resolution.payouts = [] ∨ ∃ result a,
    result.toText = some a ∧ names result ∧ resolution.payouts =
      [⟨a, prize metadata.playerChoices resolution.eliminatedPlayers metadata.oracleYield a⟩]

/-- The rounds of a game, and the rounds that transactions have claimed, pay so. -/
structure PaysAll (names : Native → Prop) (game : String) (d : Database N) : Prop where
  rounds : ∀ roundId, ∀ row ∈ d.rounds roundId, row.arenaId = game →
    ∀ metadata ∈ row.metadata, Pays names metadata
  claimed : ∀ i, ∀ tx ∈ d.transactions i, ∀ claim ∈ tx.claimed,
    ∀ metadata ∈ claim.2.metadata, Pays names metadata

/-- A call claims rounds with such resolutions only. -/
def paying (names : Native → Prop) : Protocol (Answer N) RoundError Unit where
  allowed _ q := ∀ roundId state metadata, q = .claimRound roundId state metadata →
    Pays names metadata
  answers := Names names
  next _ _ _ := ()

variable {names : Native → Prop} {game : String} {d d' : Database N} {i : ℕ}

/-! ### What the calls claim -/

theorem RoundCall.pays (svc : Service) (c : RoundCall N) :
    (c.program svc).Follows (paying names) () fun _ _ => True := by
  refine RoundCall.follows_of svc ?_ fun input _ ids payouts poolBalances hpayouts => ⟨?_, ?_⟩
  · rintro q hq roundId state metadata rfl
    cases hq
  · intro roundId state metadata heq resolution hresolution
    cases heq
    cases hresolution
    exact hpayouts
  · exact fun _ _ _ heq => nomatch heq

/-! ### What the database keeps -/

theorem PaysAll.release (h : PaysAll names game d) (i : ℕ) : PaysAll names game (d.release i) where
  rounds := h.rounds
  claimed j tx htx := by
    change Function.update d.transactions i none j = some tx at htx
    by_cases hj : j = i
    · subst hj
      rw [Function.update_self] at htx
      cases htx
    · rw [Function.update_of_ne hj] at htx
      exact h.claimed j tx htx

theorem PaysAll.put (h : PaysAll names game d) (tx : Transaction N)
    (htx : ∀ claim ∈ tx.claimed, ∀ metadata ∈ claim.2.metadata, Pays names metadata)
    {lock : String → Option ℕ} :
    PaysAll names game { d with
      transactions := Function.update d.transactions i (some tx), rowLock := lock } where
  rounds := h.rounds
  claimed j tx' htx' := by
    change Function.update d.transactions i (some tx) j = some tx' at htx'
    by_cases hj : j = i
    · subst hj
      rw [Function.update_self] at htx'
      obtain rfl := Option.some.inj htx'
      exact htx
    · rw [Function.update_of_ne hj] at htx'
      exact h.claimed j tx' htx'

theorem PaysAll.write (h : PaysAll names game d) {roundId : String} {row : RoundRow N}
    {logs : List EliminationLog}
    (hrow : row.arenaId = game → ∀ metadata ∈ row.metadata, Pays names metadata) :
    PaysAll names game { d with
      rounds := Function.update d.rounds roundId (some row), eliminationLogs := logs } where
  rounds roundId' row' hrow' := by
    change Function.update d.rounds roundId (some row) roundId' = some row' at hrow'
    by_cases hid : roundId' = roundId
    · subst hid
      rw [Function.update_self] at hrow'
      obtain rfl := Option.some.inj hrow'
      exact hrow
    · rw [Function.update_of_ne hid] at hrow'
      exact h.rounds roundId' row' hrow'
  claimed := h.claimed

variable {net : Network H} {w w' : Platform N H}

/-- A request that takes effect keeps what is stored so. -/
theorem PaysAll.serves (h : PaysAll names game w.db) {q : Request N} {a : Answer N q}
    (ha : (paying names).allowed () q) (hs : serves net i q w a w') :
    PaysAll names game w'.db := by
  cases q with
  | updateRound roundId state =>
    obtain ⟨db, hu, rfl⟩ := hs
    obtain ⟨-, row, hrow, rfl⟩ := Database.updateRound_eq_some.mp hu
    exact h.write fun hgame => h.rounds roundId row hrow hgame
  | beginTransaction =>
    obtain rfl := hs
    exact h.put ⟨none, []⟩ (by simp)
  | claimRound roundId state metadata =>
    obtain ⟨db, hc, rfl⟩ := hs
    obtain ⟨tx, htx, -, ⟨row, -, -, -, rfl⟩ | ⟨-, -, rfl⟩⟩ := Database.claimRound_cases hc
    · refine h.put _ fun claim hclaim metadata' hmetadata => ?_
      cases hclaim
      cases hmetadata
      exact ha roundId state metadata rfl
    · exact h
  | createLogs logs =>
    obtain ⟨db, hc, rfl⟩ := hs
    obtain ⟨tx, htx, -, rfl⟩ := Database.createLogs_eq_some.mp hc
    exact h.put { tx with logs := tx.logs ++ logs } (h.claimed i tx htx)
  | commit =>
    obtain ⟨db, hc, rfl⟩ := hs
    obtain ⟨tx, htx, rfl⟩ := Database.commit_eq_some.mp hc
    refine PaysAll.release ?_ i
    unfold Database.apply
    cases hclaimed : tx.claimed with
    | none => exact ⟨h.rounds, h.claimed⟩
    | some claim => exact h.write fun _ => h.claimed i tx htx claim hclaimed
  | rollback =>
    obtain rfl := hs
    exact h.release i
  | findRound roundId =>
    obtain ⟨-, rfl⟩ := hs
    exact h
  | simulateTransaction contractId call =>
    obtain ⟨-, rfl⟩ := hs
    exact h
  | sendTransaction contractId call =>
    obtain ⟨arena, -, rfl⟩ := hs
    exact h
  | getTransaction hash =>
    obtain ⟨arena, -, rfl⟩ := hs
    exact h
  | _ =>
    obtain rfl := hs
    exact h

theorem preserved_paysAll (net : Network H) (names : Native → Prop) (game : String) :
    Preserved (namingPlatform net names) (paying names) (fun _ : RoundCall N => ())
      fun (w : Platform N H) _ => PaysAll names game w.db where
  answers h := h.2
  start _ h _ := h
  reply h _ ha hr := by
    cases hr with
    | served hs => exact h.serves ha hs.1
    | lost hs => exact h.serves ha hs.1
    | refused => exact h
  moved := by
    intro w gs m w' h hm
    cases m with
    | abort i =>
      obtain rfl := hm
      exact h.release i
    | arena a =>
      obtain ⟨arena, -, rfl⟩ := hm
      exact h

end

/-! ## Games -/

/-- The payouts on record with a round. -/
def RoundRow.payouts (row : RoundRow N) : List (Payout N) :=
  ((row.metadata.bind (·.resolution)).map (·.payouts)).getD []

/-- Nothing has been paid in the game, and no transaction is in progress. -/
structure Unpaid (game : String) (d : Database N) : Prop where
  rounds : ∀ roundId, ∀ row ∈ d.rounds roundId, row.arenaId = game → row.payouts = []
  idle : ∀ i, d.transactions i = none

/-- All stakes of those who joined and the yield credited to them. -/
def entitlement (config : Arena.ArenaConfig) : ℤ :=
  config.entryFee * config.playerCount + config.cumulativeYield

/-- One payout is on record in the game: with the round that has finished it, the
    entitlement of the winner. -/
def PaidOnce (net : Network H) (t : RoundSystem ℚ H) (game : String) (winner : Address) : Prop :=
  ∃ finishing, ∃ row ∈ t.shared.db.rounds finishing, ∃ config ∈ t.shared.arena.storage.config,
    row.arenaId = game ∧ row.roundNumber = config.roundCount ∧
    row.payouts = [⟨net.strkey winner, (entitlement config : ℚ)⟩] ∧
    ∀ roundId, roundId ≠ finishing → ∀ row ∈ t.shared.db.rounds roundId,
      row.arenaId = game → row.payouts = []

/-- If the game has been won on the chain, its winner is paid once. -/
def WinnerPaid (net : Network H) (t : RoundSystem ℚ H) (game : String) : Prop :=
  ∀ winner ∈ t.shared.arena.storage.winner, PaidOnce net t game winner

section

variable [JsNumber N] {svc : Service} {net : Network H} {w : Platform N H} {t : RoundSystem N H}
variable {game : String} {names : Native → Prop}
variable {tr : List (RoundSystem N H × RoundEvent N H)}

theorem Unpaid.paysAll (h : Unpaid game w.db) : PaysAll names game w.db where
  rounds roundId row hrow hgame metadata hmetadata resolution hresolution := by
    have hnil := h.rounds roundId row hrow hgame
    unfold RoundRow.payouts at hnil
    rw [Option.mem_def.mp hmetadata, Option.bind_some, Option.mem_def.mp hresolution] at hnil
    exact .inl hnil
  claimed i tx htx := by
    rw [h.idle i] at htx
    cases htx

/-- What is on record in every state of every run. -/
theorem paysAll_of_run (hnew : Unpaid game w.db)
    (hrun : Run (System.Step (RoundCall.program svc) (namingPlatform net names)) (.idle w) tr t) :
    PaysAll names game t.shared.db := by
  obtain ⟨gs, h, -⟩ := Guarded.of_run (preserved_paysAll net names game) (RoundCall.pays svc)
    hnew.paysAll hrun
  exact h

/-- Where nobody can be named, nobody is paid. -/
theorem PaysAll.payouts_eq_nil (h : PaysAll names game t.shared.db)
    (hunnamed : ∀ result, ¬ names result) {roundId : String} {row : RoundRow N}
    (hrow : row ∈ t.shared.db.rounds roundId) (hgame : row.arenaId = game) :
    row.payouts = [] := by
  unfold RoundRow.payouts
  cases hmetadata : row.metadata with
  | none => rfl
  | some metadata =>
    rw [Option.bind_some]
    cases hresolution : metadata.resolution with
    | none => rfl
    | some resolution =>
      obtain hnil | ⟨_, _, _, hname, _⟩ :=
        h.rounds roundId row hrow hgame metadata hmetadata resolution hresolution
      · exact hnil
      · exact absurd hname (hunnamed _)

end

/-- Not even a named winner gets its own stake back: the ids of the request are no
    addresses, so only the stakes of the eliminated are counted. -/
theorem prize_of_uuid {playerChoices : List (PlayerChoice ℚ)} {eliminatedPlayers : List String}
    {oracleYield : ℚ} {winner : String} (hids : ∀ p ∈ playerChoices, isUuid p.userId = true)
    (hwinner : isStrkey winner = true) :
    prize playerChoices eliminatedPlayers oracleYield winner =
      ((playerChoices.filter (·.userId ∈ eliminatedPlayers)).map (·.stake)).sum *
        (1 + oracleYield / 100) := by
  have hnone : playerChoices.find? (·.userId = winner) = none := by
    refine List.find?_eq_none.mpr fun p hp heq => ?_
    exact ne_of_isUuid_of_isStrkey (hids p hp) hwinner (of_decide_eq_true heq)
  have hsum : ((playerChoices.filter (·.userId ∈ eliminatedPlayers)).map (·.stake)).foldl (· + ·)
      ((0 : ℕ) : ℚ) =
        ((playerChoices.filter (·.userId ∈ eliminatedPlayers)).map (·.stake)).sum := by
    rw [List.sum_eq_foldl]
    rfl
  unfold prize
  dsimp only
  rw [hnone, hsum]
  show (0 : ℚ) + _ = _
  rw [zero_add]
  rfl

/-! ## A finished game -/

/-- A working platform does not answer `get_winner`. -/
theorem names_work {inclusion : Inclusion} {i : ℕ} {q : Request N} {w w' : Platform N H}
    {net : Network H} {names : Native → Prop} {a : Answer N q}
    (h : work net inclusion i q w = some (a, w')) : Names names q a := by
  cases q with
  | simulateTransaction contractId call =>
    cases call with
    | get_winner =>
      cases h
      unfold simulateNow
      split_ifs <;> exact trivial
    | _ => exact trivial
  | _ => exact trivial

/-! ## The payout -/

section

variable [JsNumber N] {svc : Service} {net : Network H} {w : Platform N H} {t : RoundSystem N H}
variable {game : String} {names : Native → Prop}
variable {tr : List (RoundSystem N H × RoundEvent N H)}

/-- Nothing is paid where no resolution is sent, or where nobody can be named. -/
theorem unpaid_of_run (hfault : Unsendable svc net ∨ ∀ result, ¬ names result)
    (hnew : Unpaid game w.db)
    (hrun : Run (System.Step (RoundCall.program svc) (namingPlatform net names)) (.idle w) tr t)
    {roundId : String} {row : RoundRow N} (hrow : row ∈ t.shared.db.rounds roundId)
    (hgame : row.arenaId = game) : row.payouts = [] := by
  obtain hsend | hunnamed := hfault
  · have hrun' : Run (RoundStep svc net) (.idle w) tr t :=
      System.run_mono (S := namingPlatform net names) (platform net) And.left id hrun
    obtain ⟨row', hrow', hmetadata, harena⟩ := (onlyClosed_of_run hsend hrun').metadata hrow
    unfold RoundRow.payouts
    rw [hmetadata]
    exact hnew.rounds roundId row' hrow' (harena.symm.trans hgame)
  · exact (paysAll_of_run hnew hrun).payouts_eq_nil hunnamed hrow hgame

end

/-- In no run is the winner of a finished game paid: the service cannot have a
    resolution sent, and if it could, `get_winner` would not be answered. -/
theorem never_winnerPaid {svc : Service} {net : Network H} {w : Platform ℚ H}
    {t : RoundSystem ℚ H} {tr : List (RoundSystem ℚ H × RoundEvent ℚ H)} {game : String}
    {names : Native → Prop} (hfault : Unsendable svc net ∨ ∀ result, ¬ names result)
    (hnew : Unpaid game w.db)
    (hrun : Run (System.Step (RoundCall.program svc) (namingPlatform net names)) (.idle w) tr t)
    (hover : t.shared.arena.storage.winner.isSome = true) : ¬ WinnerPaid net t game := by
  intro hpaid
  obtain ⟨winner, hwinner⟩ := Option.isSome_iff_exists.mp hover
  obtain ⟨finishing, row, hrow, config, -, hgame, -, hpayouts, -⟩ := hpaid winner hwinner
  rw [unpaid_of_run hfault hnew hrun hrow hgame] at hpayouts
  cases hpayouts

/-- A script for a platform where `get_winner` is not answered. -/
def workingNamed (net : Network H) (names : Native → Prop) [DecidablePred net.env.mayAuthorize] :
    Script (namingPlatform net names : Server (Answer N) (Platform N H) (PlatformMove H))
      Inclusion where
  serve := work net
  move := moveNow net
  serve_sound h := ⟨work_serves net h, names_work h⟩
  move_sound := moveNow_moves net

/-- The sample resolution reads its round, the admin has `resolve_round` executed, and
    the call fails in its simulation. -/
def sampleGame : List (Move RoundError (RoundCall ℚ) (PlatformMove Arena.VaultState) Inclusion) :=
  [.start 0 (.resolveRound sampleInput), .serve 0 .prompt,
    .moved (.arena (.call [⟨10⟩] .resolveRound)), .serve 0 .prompt, .serve 0 .prompt]

/-- Player 11 has won. -/
theorem exists_sampleGame : ∃ tr t,
    Run (System.Step (RoundCall.program sampleService)
      (namingPlatform sampleNet fun _ => False)) (.idle samplePlatform) tr t ∧
      t.shared.arena.storage.winner = some ⟨11⟩ := by
  have hreplay : ∃ r ∈ replay ((workingNamed sampleNet fun _ => False).perform
      (RoundCall.program sampleService)) sampleGame [] (.idle samplePlatform),
      r.2.shared.arena.storage.winner = some ⟨11⟩ := by
    decide +kernel
  exact exists_run_of_replay (P := fun _ t => t.shared.arena.storage.winner = some ⟨11⟩)
    ((workingNamed sampleNet fun _ => False).perform_step) hreplay

theorem samplePlatform_unpaid : Unpaid "arena" samplePlatform.db where
  rounds roundId row hrow _ := by
    change (if roundId = sampleRound then some (⟨"arena", 1, .OPEN, none⟩ : RoundRow ℚ) else none) =
      some row at hrow
    split_ifs at hrow
    cases hrow
    rfl
  idle _ := rfl

theorem never_winnerPaid_sample : ∃ tr t,
    Run (System.Step (RoundCall.program sampleService)
      (namingPlatform sampleNet fun _ => False)) (.idle samplePlatform) tr t ∧
      t.shared.arena.storage.winner.isSome = true ∧ ¬ WinnerPaid sampleNet t "arena" := by
  obtain ⟨tr, t, hrun, hwon⟩ := exists_sampleGame
  have hover : t.shared.arena.storage.winner.isSome = true := by
    rw [hwon]
    rfl
  exact ⟨tr, t, hrun, hover, never_winnerPaid (.inl (.inl rfl)) samplePlatform_unpaid hrun hover⟩

/-- Player 11 has won, and no payout is on record. -/
theorem not_winnerPaid :
    ¬ ∀ (tr : List (RoundSystem ℚ Arena.VaultState × RoundEvent ℚ Arena.VaultState))
        (t : RoundSystem ℚ Arena.VaultState),
      Run (System.Step (RoundCall.program sampleService)
        (namingPlatform sampleNet fun _ => False)) (.idle samplePlatform) tr t →
      WinnerPaid sampleNet t "arena" := by
  intro hclaim
  obtain ⟨tr, t, hrun, hwon⟩ := exists_sampleGame
  obtain ⟨finishing, row, hrow, config, -, hgame, -, hpayouts, -⟩ := hclaim tr t hrun ⟨11⟩ hwon
  rw [unpaid_of_run (.inl (.inl rfl)) samplePlatform_unpaid hrun hrow hgame] at hpayouts
  cases hpayouts

end InverseArena.Backend
