import InverseArena.Arena.RevealWindow
import Mathlib.Algebra.BigOperators.Intervals

/-!
# Played rounds and their records

`resolve_round` stores a `RoundResult` and a `YieldSnapshot` under the number
of the round, and adds the yield since `start_round` to `cumulative_yield`
(`contract/arena/src/lib.rs`, lines 535-682).

Results:
* `Step.records`, `Step.sameRecords`: what `resolve_round` records, and that
  nothing else changes the records.
* `Baseline.step`: in an active arena the recorded balance is the one the vault
  reported to the last `start_round`.
* `recorded_of_run`: what is stored about the rounds of a run.
-/

namespace InverseArena.Arena

open MachineInt Transition

variable {H : Type}

/-! ## Played rounds -/

/-- A round that was played: the worlds in which `start_round` and
    `resolve_round` were called, and the one right after. -/
structure Played (H : Type) where
  started : World H
  resolved : World H
  after : World H

/-- The rounds played in a run whose steps `tr` led to `w`, newest first. -/
def played : List (World H × Action H) → World H → List (Played H)
  | [], _ => []
  | (t, a) :: tr, w =>
    if a.isResolve then ((lastStart tr).map fun e => ⟨e.1, t, w⟩).toList ++ played tr t
    else played tr t

/-- The number of the round. -/
def Played.round (p : Played H) : ℕ := p.resolved.storage.config.elim 0 ArenaConfig.round

/-- The balance the vault reports to `start_round` called in `w`. -/
def World.balanceAtStart (env : Env H) (w : World H) : Option ℤ :=
  w.storage.config.bind fun config =>
    (env.balanceOf w.now config.yieldVault env.here w.outside).map (·.1)

/-- The balance the vault reports to `resolve_round` called in `w`, which has
    asked the oracle before. -/
def World.balanceAtResolve (env : Env H) (w : World H) : Option ℤ :=
  w.storage.config.bind fun config =>
    (env.balanceOf w.now config.yieldVault env.here
      (fetchYieldBps env config.oracleContract w).2.outside).map (·.1)

/-- In every one of the rounds the vault reported two balances, which are
    non-negative `i128`s. -/
def VaultAnswers (env : Env H) (rounds : List (Played H)) : Prop :=
  ∀ p ∈ rounds, ∃ opening closing, p.started.balanceAtStart env = some opening ∧
    p.resolved.balanceAtResolve env = some closing ∧
    0 ≤ opening ∧ opening ≤ i128Max ∧ 0 ≤ closing ∧ closing ≤ i128Max

/-- What the vault earned during the round, if anything. -/
def Played.earned (env : Env H) (p : Played H) : ℤ :=
  max 0 ((p.resolved.balanceAtResolve env).getD 0 - (p.started.balanceAtStart env).getD 0)

section PlayedRounds

variable {tr : List (World H × Action H)} {t w start : World H} {a : Action H} {d : ℕ}

theorem played_cons (ha : a.isResolve = false) : played ((t, a) :: tr) w = played tr t := by
  show (if a.isResolve = true then _ else _) = _
  rw [if_neg (by simp [ha])]

theorem played_cons_of_resolve (ha : a.isResolve = true) (hlast : lastStart tr = some (start, d)) :
    played ((t, a) :: tr) w = ⟨start, t, w⟩ :: played tr t := by
  show (if a.isResolve = true then _ else _) = _
  rw [if_pos ha, hlast]
  rfl

end PlayedRounds

/-! ## Stored records -/

/-- `config.round_count`, 0 before `initialize`. -/
def ArenaStorage.roundCount (s : ArenaStorage) : ℕ := s.config.elim 0 ArenaConfig.roundCount

/-- `config.cumulative_yield`, 0 before `initialize`. -/
def ArenaStorage.cumulativeYield (s : ArenaStorage) : ℤ :=
  s.config.elim 0 ArenaConfig.cumulativeYield

/-- `YieldSnapshot(round).accrued`. -/
def ArenaStorage.accruedIn (s : ArenaStorage) (round : ℕ) : ℤ :=
  (s.yieldSnapshot round).elim 0 YieldSnapshot.accrued

/-- `RoundResult(round).eliminated`. -/
def ArenaStorage.eliminatedIn (s : ArenaStorage) (round : ℕ) : ℕ :=
  (s.roundResult round).elim 0 RoundResult.eliminated

/-- The players who are out of the game. -/
def ArenaStorage.inactivePlayers (s : ArenaStorage) : List Address :=
  s.loadAllPlayers.filter fun player => !s.isActive player

theorem length_loadAllPlayers (s : ArenaStorage) :
    s.loadAllPlayers.length = s.activePlayers.length + s.inactivePlayers.length :=
  List.length_eq_length_filter_add _

theorem inactivePlayers_congr {s s' : ArenaStorage} (hplayers : s'.players = s.players)
    (hplayer : s'.player = s.player) : s'.inactivePlayers = s.inactivePlayers := by
  unfold ArenaStorage.inactivePlayers ArenaStorage.isActive ArenaStorage.loadPlayer
    ArenaStorage.loadAllPlayers
  rw [hplayers, hplayer]

/-- A new player is not out. -/
theorem inactivePlayers_join {s s' : ArenaStorage} {player : Address}
    (hnew : player ∉ s.loadAllPlayers)
    (hplayers : s'.players = some (s.loadAllPlayers ++ [player]))
    (hplayer : s'.player = Function.update s.player player (some ⟨true, 0⟩)) :
    s'.inactivePlayers.length = s.inactivePlayers.length := by
  have hall : s'.loadAllPlayers = s.loadAllPlayers ++ [player] := by
    unfold ArenaStorage.loadAllPlayers
    rw [hplayers]
    rfl
  have hbefore := length_loadAllPlayers s
  have hafter := length_loadAllPlayers s'
  rw [hall, activePlayers_join hnew hplayers hplayer] at hafter
  simp only [List.length_append] at hafter
  omega

/-- Those who drop out of a round are out after it. -/
theorem inactivePlayers_resolved {s s' : ArenaStorage} {round : ℕ}
    (hknown : ∀ p, (s.player p).isSome = true ↔ p ∈ s.loadAllPlayers)
    (hplayers : s'.players = s.players) (hplayer : s'.player = playersAfter s round) :
    s'.inactivePlayers.length = s.inactivePlayers.length + (droppedFrom s round).length := by
  have hall : s'.loadAllPlayers = s.loadAllPlayers := by
    unfold ArenaStorage.loadAllPlayers
    rw [hplayers]
  have hsplit := length_activePlayers s round
  have hbefore := length_loadAllPlayers s
  have hafter := length_loadAllPlayers s'
  rw [hall, activePlayers_resolved hknown hplayers hplayer] at hafter
  omega

/-- `w'` has the records of `w`, and as many players are out. -/
structure SameRecords (w w' : World H) : Prop where
  results : w'.storage.roundResult = w.storage.roundResult
  snapshots : w'.storage.yieldSnapshot = w.storage.yieldSnapshot
  count : w'.storage.roundCount = w.storage.roundCount
  yield : w'.storage.cumulativeYield = w.storage.cumulativeYield
  inactive : w'.storage.inactivePlayers.length = w.storage.inactivePlayers.length

/-- `resolve_round` takes `w`, configured as `config`, to `w'` and records `result`. -/
structure Records (env : Env H) (w w' : World H) (config : ArenaConfig) (result : RoundResult) :
    Prop where
  configured : w.storage.config = some config
  active : config.state = .Active
  count : w'.storage.roundCount = config.round
  yield : w'.storage.cumulativeYield =
    satAddI128 config.cumulativeYield result.yieldSnapshot.accrued
  results : w'.storage.roundResult =
    Function.update w.storage.roundResult config.round (some result)
  snapshots : w'.storage.yieldSnapshot =
    Function.update w.storage.yieldSnapshot config.round (some result.yieldSnapshot)
  accrued : result.yieldSnapshot.accrued = roundYield env config w
  survivors : result.survivors = w'.storage.activePlayers.length
  eliminated : w'.storage.inactivePlayers.length =
    w.storage.inactivePlayers.length + result.eliminated

section Steps

variable {env : Env H} {auths : List Address} {w w' : World H} {c : Call} {a : Action H}

theorem SameRecords.of_quiet (h : Quiet w w') : SameRecords w w' := by
  obtain ⟨config, config', hc, hc', hcount, hyield, -⟩ := h.configured
  refine ⟨h.results, h.snapshots, ?_, ?_, ?_⟩
  · unfold ArenaStorage.roundCount
    rw [hc, hc']
    exact hcount
  · unfold ArenaStorage.cumulativeYield
    rw [hc, hc']
    exact hyield
  · rw [inactivePlayers_congr h.players h.player]

theorem SameRecords.of_eq (h : w'.storage = w.storage) : SameRecords w w' where
  results := by rw [h]
  snapshots := by rw [h]
  count := by rw [h]
  yield := by rw [h]
  inactive := by rw [h]

/-- Only `resolve_round` changes the records. -/
theorem Effect.sameRecords (h : Effect env auths w c w') (hw : WellFormed w)
    (hres : c ≠ .resolveRound) : SameRecords w w' := by
  have hquiet := fun hq => SameRecords.of_quiet (h.quiet hq)
  cases h with
  | initialized ha hnone hfee hlim hbal =>
    have hblank := hw.blank hnone
    exact {
      results := rfl
      snapshots := rfl
      count := by rw [hblank]; rfl
      yield := by rw [hblank]; rfl
      inactive := rfl }
  | @joined player config _ _ hguard ha hc hp hs hne hban hnone hmax htr hdep =>
    have hnew : player ∉ w.storage.loadAllPlayers := by
      rw [← hw.known, hnone]
      simp
    refine ⟨rfl, rfl, ?_, ?_, inactivePlayers_join hnew rfl rfl⟩
    · unfold ArenaStorage.roundCount
      rw [hc]
      rfl
    · unfold ArenaStorage.cumulativeYield
      rw [hc]
      rfl
  | roundResolved => exact absurd rfl hres
  | administered hadm => exact hquiet (Call.isQuiet_of_administrative hadm)
  | _ => exact hquiet rfl

theorem Step.sameRecords (h : Step env w a w') (hw : WellFormed w) (ha : a.isResolve = false) :
    SameRecords w w' := by
  cases h with
  | call _ hexec =>
    refine (exec_effect hexec).sameRecords hw fun hc => ?_
    rw [hc] at ha
    cases ha
  | external _ => exact .of_eq rfl
  | tick _ _ => exact .of_eq rfl

theorem Step.records (h : Step env w a w') (hw : WellFormed w) (ha : a.isResolve = true) :
    ∃ config result, Records env w w' config result := by
  unfold Action.isResolve at ha
  split at ha
  · cases h with
    | call _ hexec =>
      cases exec_effect hexec with
      | administered hadm => cases hadm
      | @roundResolved config _ hguard hc hauth hp hs hstart hnow =>
        obtain ⟨snapshot, hrec⟩ := @roundResult_settleRound H env
          { w with storage := { w.storage with reentrancyGuard := some true } } config hw.nodup
        obtain ⟨bps, eliminated, events, heq⟩ := @settleRound_eq H env w config hw.nodup
        rw [heq] at hrec ⊢
        have helim : eliminated = (droppedFrom w.storage config.round).length := by
          dsimp only at hrec
          rw [Function.update_self] at hrec
          exact congrArg RoundResult.eliminated (Option.some.inj hrec)
        refine ⟨config, ⟨config.round, eliminated, (survivorsOf w.storage config.round).length,
          ⟨config.round, bps, roundYield env config w⟩⟩, hc, hs, rfl, rfl, rfl, rfl, rfl, ?_, ?_⟩
        · refine congrArg List.length (Eq.symm ?_)
          exact activePlayers_resolved hw.known rfl rfl
        · rw [helim]
          exact inactivePlayers_resolved hw.known rfl rfl
  · cases ha

/-! ## The balance at the start of a round -/

/-- The balance recorded in an active arena is what the vault reported to the
    last `start_round`. -/
def Baseline (env : Env H) (tr : List (World H × Action H)) (w : World H) : Prop :=
  InState w .Active → ∃ t d, lastStart tr = some (t, d) ∧
    w.storage.loadLastVaultBalance = (t.balanceAtStart env).getD 0

/-- While a round goes on, no call moves money or records a balance. -/
theorem Effect.of_active (h : Effect env auths w c w') (hw : WellFormed w)
    (hstart : ∀ d, c ≠ .startRound d) (hs' : InState w' .Active) :
    w'.outside = w.outside ∧ w'.storage.lastVaultBalance = w.storage.lastVaultBalance ∧
      c ≠ .resolveRound := by
  cases h with
  | @initialized a _ _ ha hnone hfee hlim hbal =>
    exact hs'.elim rfl (show a.config.state = .Open from rfl) (by simp)
  | administered hadm =>
    refine ⟨rfl, rfl, ?_⟩
    rintro rfl
    cases hadm
  | joined hguard ha hc hp hs hne hban hnone hmax htr hdep => exact hs'.elim rfl hs (by simp)
  | committed => exact ⟨rfl, rfl, nofun⟩
  | revealed => exact ⟨rfl, rfl, nofun⟩
  | roundStarted hc ha hp hs hmin => exact absurd rfl (hstart _)
  | @roundResolved config _ hguard hc ha hp hs hround hnow =>
    obtain ⟨bps, eliminated, events, heq⟩ := @settleRound_eq H env w config hw.nodup
    rw [heq] at hs'
    refine hs'.elim rfl rfl ?_
    dsimp only
    split_ifs
    · simp
    · simp
  | cancelled => exact hs'.elim rfl rfl (by simp)
  | expired => exact hs'.elim rfl rfl (by simp)
  | claimed => exact hs'.elim rfl rfl (by simp)
  | forceCancelled => exact hs'.elim rfl rfl (by simp)
  | forceCancelledAgain hguard hc ha hs => exact hs'.elim hc hs (by simp)
  | refunded ha hc hs href hpl htr => exact hs'.elim hc hs (by simp)

theorem Baseline.step {tr : List (World H × Action H)} (h : Baseline env tr w)
    (hw : WellFormed w) (hs : Step env w a w') : Baseline env ((w, a) :: tr) w' := by
  intro hact
  cases ha : a.started with
  | some d =>
    refine ⟨w, d, lastStart_cons_of_start ha, ?_⟩
    unfold Action.started at ha
    split at ha
    · cases hs with
      | call _ hexec =>
        cases exec_effect hexec with
        | administered hadm => cases hadm
        | roundStarted hc hauth hp hopen hmin =>
          show (vaultBalanceOr env w.now _ 0 w.outside).1 = _
          unfold vaultBalanceOr World.balanceAtStart
          rw [hc, Option.bind_some]
          cases env.balanceOf w.now _ env.here w.outside with
          | none => rfl
          | some r => rfl
    · cases ha
  | none =>
    obtain ⟨t, d, hlast, hbal⟩ := h (hs.active_of_active hw ha hact)
    refine ⟨t, d, (lastStart_cons ha).trans hlast, Eq.trans ?_ hbal⟩
    unfold ArenaStorage.loadLastVaultBalance
    cases hs with
    | call _ hexec =>
      rw [((exec_effect hexec).of_active hw ?_ hact).2.1]
      intro d hd
      rw [hd] at ha
      cases ha
    | external _ => rfl
    | tick _ _ => rfl

theorem baseline_of_run {outside : H} {now : ℕ} {tr : List (World H × Action H)}
    (hrun : Run (Step env) (World.fresh outside now) tr w) : Baseline env tr w := by
  refine hrun.history ?_ fun _ _ _ _ hr h hs => h.step (wellFormed_of_run hr) hs
  rintro ⟨config, hc, -⟩
  cases hc

/-- The number of a round is the next one, up to `u32::MAX`. -/
theorem Records.round_eq {config : ArenaConfig} {result : RoundResult}
    (h : Records env w w' config result) :
    config.round = min (w.storage.roundCount + 1) u32Max := by
  unfold ArenaStorage.roundCount
  rw [h.configured]
  rfl

theorem Records.yield_eq {config : ArenaConfig} {result : RoundResult}
    (h : Records env w w' config result) : w'.storage.cumulativeYield =
      satAddI128 w.storage.cumulativeYield result.yieldSnapshot.accrued := by
  rw [h.yield]
  unfold ArenaStorage.cumulativeYield
  rw [h.configured]
  rfl

/-- The yield of a round is what the vault earned during it. -/
theorem Records.accrued_eq {config : ArenaConfig} {result : RoundResult} {start : World H}
    (h : Records env w w' config result)
    (hbase : w.storage.loadLastVaultBalance = (start.balanceAtStart env).getD 0)
    (hvault : VaultAnswers env [⟨start, w, w'⟩]) :
    result.yieldSnapshot.accrued = Played.earned env ⟨start, w, w'⟩ := by
  obtain ⟨opening, closing, ho, hcl, ho0, ho1, hc0, hc1⟩ := hvault _ List.mem_cons_self
  replace ho : start.balanceAtStart env = some opening := ho
  replace hcl : w.balanceAtResolve env = some closing := hcl
  have hread : (roundReading env config w).1 = closing := by
    unfold World.balanceAtResolve at hcl
    rw [h.configured] at hcl
    obtain ⟨⟨b, outside⟩, hbal, rfl⟩ := Option.map_eq_some_iff.mp hcl
    unfold roundReading vaultBalanceOr
    rw [hbal]
    rfl
  rw [h.accrued]
  unfold roundYield Played.earned
  dsimp only
  rw [hbase, hread, ho, hcl]
  show (if closing ≥ opening then wrapI128 (closing - opening) else 0) = max 0 (closing - opening)
  split_ifs with hle
  · rw [wrapI128_of_mem (by unfold i128Min; omega) (by omega)]
    omega
  · omega

/-! ## The records of a run -/

/-- What is stored about the rounds played so far. -/
structure Recorded (env : Env H) (tr : List (World H × Action H)) (w : World H) : Prop where
  count : w.storage.roundCount = min (played tr w).length u32Max
  stored : ∀ r, (w.storage.roundResult r).isSome = true ↔ 1 ≤ r ∧ r ≤ w.storage.roundCount
  snapshot : ∀ r, w.storage.yieldSnapshot r =
    (w.storage.roundResult r).map RoundResult.yieldSnapshot
  record : ∀ r result, w.storage.roundResult r = some result → ∃ p,
    (played tr w).find? (fun p => p.round = r) = some p ∧
    result.survivors = p.after.storage.activePlayers.length ∧
    (VaultAnswers env [p] → result.yieldSnapshot.accrued = p.earned env)
  yield : VaultAnswers env (played tr w) → (played tr w).length ≤ u32Max →
    w.storage.cumulativeYield =
      min i128Max (∑ r ∈ Finset.Icc 1 w.storage.roundCount, w.storage.accruedIn r)
  eliminated : (played tr w).length ≤ u32Max →
    ∑ r ∈ Finset.Icc 1 w.storage.roundCount, w.storage.eliminatedIn r =
      w.storage.inactivePlayers.length

/-- With the vault's answers no accrued yield is negative. -/
theorem Recorded.accruedIn_nonneg {tr : List (World H × Action H)} (h : Recorded env tr w)
    (hvault : VaultAnswers env (played tr w)) (r : ℕ) : 0 ≤ w.storage.accruedIn r := by
  unfold ArenaStorage.accruedIn
  rw [h.snapshot]
  cases hr : w.storage.roundResult r with
  | none => exact le_rfl
  | some result =>
    obtain ⟨p, hfind, -, haccrued⟩ := h.record r result hr
    have hp := hvault p (List.mem_of_find?_eq_some hfind)
    show 0 ≤ result.yieldSnapshot.accrued
    rw [haccrued fun q hq => by rw [List.mem_singleton.mp hq]; exact hp]
    exact le_max_left _ _

theorem Recorded.same {tr tr' : List (World H × Action H)} (h : Recorded env tr w)
    (hs : SameRecords w w') (hplayed : played tr' w' = played tr w) : Recorded env tr' w' := by
  have haccrued : w'.storage.accruedIn = w.storage.accruedIn := by
    unfold ArenaStorage.accruedIn
    rw [hs.snapshots]
  have heliminated : w'.storage.eliminatedIn = w.storage.eliminatedIn := by
    unfold ArenaStorage.eliminatedIn
    rw [hs.results]
  constructor
  · rw [hs.count, hplayed]
    exact h.count
  · rw [hs.results, hs.count]
    exact h.stored
  · rw [hs.results, hs.snapshots]
    exact h.snapshot
  · rw [hs.results, hplayed]
    exact h.record
  · rw [hs.yield, hs.count, haccrued, hplayed]
    exact h.yield
  · rw [hs.count, heliminated, hs.inactive, hplayed]
    exact h.eliminated

/-- A sum up to `n + 1` of values that up to `n` are those of `f`. -/
theorem sum_Icc_succ_of_eq {M : Type} [AddCommMonoid M] {f f' : ℕ → M} {n : ℕ}
    (h : ∀ r, r ≤ n → f' r = f r) :
    ∑ r ∈ Finset.Icc 1 (n + 1), f' r = ∑ r ∈ Finset.Icc 1 n, f r + f' (n + 1) := by
  rw [Finset.sum_Icc_succ_top (by omega)]
  congr 1
  refine Finset.sum_congr rfl fun r hr => h r ?_
  exact (Finset.mem_Icc.mp hr).2

section NewRecord

variable {config : ArenaConfig} {result : RoundResult}

/-- Under a number that was not used before, the yield of the round is added to
    the sum over the records. -/
theorem Records.sum_accruedIn (h : Records env w w' config result)
    (hsucc : config.round = w.storage.roundCount + 1) :
    ∑ r ∈ Finset.Icc 1 w'.storage.roundCount, w'.storage.accruedIn r =
      ∑ r ∈ Finset.Icc 1 w.storage.roundCount, w.storage.accruedIn r +
        result.yieldSnapshot.accrued := by
  have hold : ∀ r, r ≤ w.storage.roundCount → w'.storage.accruedIn r = w.storage.accruedIn r := by
    intro r hle
    unfold ArenaStorage.accruedIn
    rw [h.snapshots, Function.update_of_ne (by omega)]
  have hnew : w'.storage.accruedIn config.round = result.yieldSnapshot.accrued := by
    unfold ArenaStorage.accruedIn
    rw [h.snapshots, Function.update_self]
    rfl
  rw [h.count, hsucc, sum_Icc_succ_of_eq hold, ← hsucc, hnew]

/-- And so are the players eliminated in the round. -/
theorem Records.sum_eliminatedIn (h : Records env w w' config result)
    (hsucc : config.round = w.storage.roundCount + 1) :
    ∑ r ∈ Finset.Icc 1 w'.storage.roundCount, w'.storage.eliminatedIn r =
      ∑ r ∈ Finset.Icc 1 w.storage.roundCount, w.storage.eliminatedIn r + result.eliminated := by
  have hold : ∀ r, r ≤ w.storage.roundCount →
      w'.storage.eliminatedIn r = w.storage.eliminatedIn r := by
    intro r hle
    unfold ArenaStorage.eliminatedIn
    rw [h.results, Function.update_of_ne (by omega)]
  have hnew : w'.storage.eliminatedIn config.round = result.eliminated := by
    unfold ArenaStorage.eliminatedIn
    rw [h.results, Function.update_self]
    rfl
  rw [h.count, hsucc, sum_Icc_succ_of_eq hold, ← hsucc, hnew]

end NewRecord

section Resolved

variable {tr tr' : List (World H × Action H)} {start : World H} {config : ArenaConfig}
  {result : RoundResult}

theorem Records.result_self (h : Records env w w' config result) :
    w'.storage.roundResult config.round = some result := by
  rw [h.results, Function.update_self]

theorem Records.result_of_ne (h : Records env w w' config result) {r : ℕ}
    (hne : r ≠ config.round) : w'.storage.roundResult r = w.storage.roundResult r := by
  rw [h.results, Function.update_of_ne hne]

/-- The numbers in use stay those up to the round count. -/
theorem Recorded.stored_resolved (h : Recorded env tr w) (hr : Records env w w' config result)
    (r : ℕ) : (w'.storage.roundResult r).isSome = true ↔ 1 ≤ r ∧ r ≤ w'.storage.roundCount := by
  have hnext := hr.round_eq
  have hcount := h.count
  have hmax : 1 ≤ u32Max := by decide
  rw [hr.count]
  by_cases hne : r = config.round
  · rw [hne, hr.result_self]
    simp
    omega
  · rw [hr.result_of_ne hne, h.stored]
    omega

theorem Recorded.snapshot_resolved (h : Recorded env tr w) (hr : Records env w w' config result)
    (r : ℕ) : w'.storage.yieldSnapshot r =
      (w'.storage.roundResult r).map RoundResult.yieldSnapshot := by
  by_cases hne : r = config.round
  · rw [hne, hr.result_self, hr.snapshots, Function.update_self]
    rfl
  · rw [hr.result_of_ne hne, hr.snapshots, Function.update_of_ne hne]
    exact h.snapshot r

/-- The record of a number is that of the last round played under it. -/
theorem Recorded.record_resolved (h : Recorded env tr w) (hr : Records env w w' config result)
    (hbase : w.storage.loadLastVaultBalance = (start.balanceAtStart env).getD 0)
    (hplayed : played tr' w' = ⟨start, w, w'⟩ :: played tr w) {r : ℕ} {result' : RoundResult}
    (hres : w'.storage.roundResult r = some result') : ∃ p,
      (played tr' w').find? (fun p => p.round = r) = some p ∧
      result'.survivors = p.after.storage.activePlayers.length ∧
      (VaultAnswers env [p] → result'.yieldSnapshot.accrued = p.earned env) := by
  have hround : (⟨start, w, w'⟩ : Played H).round = config.round := by
    unfold Played.round
    dsimp only
    rw [hr.configured]
    rfl
  by_cases hne : r = config.round
  · rw [hne, hr.result_self] at hres
    obtain rfl := Option.some.inj hres
    refine ⟨⟨start, w, w'⟩, ?_, hr.survivors, hr.accrued_eq hbase⟩
    rw [hplayed, hne]
    exact List.find?_cons_of_pos (by simp [hround])
  · rw [hr.result_of_ne hne] at hres
    obtain ⟨p, hfind, hp⟩ := h.record r result' hres
    refine ⟨p, ?_, hp⟩
    rw [hplayed, List.find?_cons_of_neg (by simp [hround, Ne.symm hne])]
    exact hfind

/-- The cumulative yield grows by what the new record adds to the sum. -/
theorem Recorded.yield_resolved (h : Recorded env tr w) (hr : Records env w w' config result)
    (hvault : VaultAnswers env (played tr w)) (hpos : 0 ≤ result.yieldSnapshot.accrued)
    (hle : (played tr w).length ≤ u32Max) (hsucc : config.round = w.storage.roundCount + 1) :
    w'.storage.cumulativeYield =
      min i128Max (∑ r ∈ Finset.Icc 1 w'.storage.roundCount, w'.storage.accruedIn r) := by
  have hsum : 0 ≤ ∑ r ∈ Finset.Icc 1 w.storage.roundCount, w.storage.accruedIn r :=
    Finset.sum_nonneg fun r _ => h.accruedIn_nonneg hvault r
  rw [hr.yield_eq, h.yield hvault hle, hr.sum_accruedIn hsucc]
  unfold satAddI128 clampI128 i128Min i128Max
  omega

theorem Recorded.resolved (h : Recorded env tr w) (hr : Records env w w' config result)
    (hbase : w.storage.loadLastVaultBalance = (start.balanceAtStart env).getD 0)
    (hplayed : played tr' w' = ⟨start, w, w'⟩ :: played tr w) : Recorded env tr' w' := by
  have hnext := hr.round_eq
  have hcount := h.count
  have hlen : (played tr' w').length = (played tr w).length + 1 := by
    rw [hplayed]
    rfl
  have hmin : ∀ n m : ℕ, min (min n m + 1) m = min (n + 1) m := by
    intro n m
    omega
  -- a number that was not used before
  have hfit : (played tr' w').length ≤ u32Max → config.round = w.storage.roundCount + 1 := by
    intro hle
    omega
  constructor
  · rw [hr.count, hnext, hcount, hlen, hmin]
  · exact h.stored_resolved hr
  · exact h.snapshot_resolved hr
  · intro r result' hres
    exact h.record_resolved hr hbase hplayed hres
  · intro hvault hle
    rw [hplayed] at hvault
    have hrest : VaultAnswers env (played tr w) := fun p hp => hvault p (List.mem_cons_of_mem _ hp)
    have hnew : VaultAnswers env [⟨start, w, w'⟩] := fun p hp => hvault p (by
      rw [List.mem_singleton.mp hp]
      exact List.mem_cons_self)
    refine h.yield_resolved hr hrest ?_ (by omega) (hfit hle)
    rw [hr.accrued_eq hbase hnew]
    exact le_max_left _ _
  · intro hle
    rw [hr.sum_eliminatedIn (hfit hle), h.eliminated (by omega), hr.eliminated]

end Resolved

/-- A resolved round was started. -/
theorem Records.exists_lastStart {tr : List (World H × Action H)} {config : ArenaConfig}
    {result : RoundResult} (h : Records env w w' config result) (hbase : Baseline env tr w) :
    ∃ t d, lastStart tr = some (t, d) ∧
      w.storage.loadLastVaultBalance = (t.balanceAtStart env).getD 0 :=
  hbase ⟨config, h.configured, h.active⟩

theorem Recorded.step {tr : List (World H × Action H)} (h : Recorded env tr w)
    (hw : WellFormed w) (hbase : Baseline env tr w) (hs : Step env w a w') :
    Recorded env ((w, a) :: tr) w' := by
  cases ha : a.isResolve with
  | false => exact h.same (hs.sameRecords hw ha) (played_cons ha)
  | true =>
    obtain ⟨config, result, hr⟩ := hs.records hw ha
    obtain ⟨t, d, hlast, hbal⟩ := hr.exists_lastStart hbase
    exact h.resolved hr hbal (played_cons_of_resolve ha hlast)

section Runs

variable {outside : H} {now : ℕ} {tr : List (World H × Action H)}

theorem recorded_of_run (hrun : Run (Step env) (World.fresh outside now) tr w) :
    Recorded env tr w := by
  refine hrun.history ?_ fun _ _ _ _ hr h hs =>
    h.step (wellFormed_of_run hr) (baseline_of_run hr) hs
  constructor
  · rfl
  · intro r
    show (none : Option RoundResult).isSome = true ↔ 1 ≤ r ∧ r ≤ 0
    simp
    omega
  · intro r
    rfl
  · intro r result hr
    cases hr
  · intro _ _
    rfl
  · intro _
    rfl

/-- Every `resolve_round` ends a played round. -/
theorem length_played (hrun : Run (Step env) (World.fresh outside now) tr w) :
    (played tr w).length = tr.countP fun e => e.2.isResolve := by
  refine hrun.history (I := fun tr w => (played tr w).length = tr.countP fun e => e.2.isResolve)
    rfl fun tr t a u hr ih hs => ?_
  rw [List.countP_cons]
  cases ha : a.isResolve with
  | false => simpa [played_cons ha] using ih
  | true =>
    obtain ⟨config, result, hrec⟩ := hs.records (wellFormed_of_run hr) ha
    obtain ⟨start, d, hlast, -⟩ := hrec.exists_lastStart (baseline_of_run hr)
    rw [played_cons_of_resolve ha hlast, List.length_cons, ih]
    rfl

/-- A played round was configured when it was started and resolved. -/
theorem played_configured (hrun : Run (Step env) (World.fresh outside now) tr w) :
    ∀ p ∈ played tr w, (∃ config, p.started.storage.config = some config) ∧
      ∃ config, p.resolved.storage.config = some config := by
  refine hrun.history (I := fun tr w => ∀ p ∈ played tr w,
    (∃ config, p.started.storage.config = some config) ∧
      ∃ config, p.resolved.storage.config = some config) ?_ fun tr t a u hr ih hs => ?_
  · intro p hp
    cases hp
  · cases ha : a.isResolve with
    | false =>
      rw [played_cons ha]
      exact ih
    | true =>
      obtain ⟨config, result, hrec⟩ := hs.records (wellFormed_of_run hr) ha
      obtain ⟨start, d, hlast, -⟩ := hrec.exists_lastStart (baseline_of_run hr)
      obtain ⟨-, -, -, -, config₀, -, hc₀, -⟩ := (roundClock_of_run hr).running start d hlast
      rw [played_cons_of_resolve ha hlast]
      intro p hp
      rcases List.mem_cons.mp hp with rfl | hp
      · exact ⟨⟨config₀, hc₀⟩, config, hrec.configured⟩
      · exact ih p hp

end Runs

end Steps

end InverseArena.Arena
