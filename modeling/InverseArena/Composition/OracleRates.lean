import InverseArena.Arena.Organiser
import InverseArena.Oracle.Contract
import InverseArena.Vault.Reference

/-!
# The rates that an arena records

`resolve_round` asks the oracle for its rate (`contract/arena/src/oracle.rs`) and records it
in the snapshot and the result of the round. The oracle is the contract of `contract/oracle`:
whatever else happens, its storage changes by its own entry points only.

Results:
* `rates_capped`: no arena ever records a rate above the highest ceiling of its oracle.
-/

namespace InverseArena.Composition

open Host MachineInt Transition Arena Oracle

variable {H : Type}

/-- The call sets no ceiling above `cap`. -/
def KeepsCap (cap : ℕ) (a : OracleAction) : Prop := ∀ m, a.call = .setMaxRate m → m ≤ cap

/-- The oracle went from `s` to `s'` by calls to its entry points, none of which set a ceiling
    above `cap`. -/
def OracleMoves (cap : ℕ) (s s' : OracleState) : Prop :=
  ∃ tr, Run OracleStep s tr s' ∧ ∀ e ∈ tr, KeepsCap cap e.2

/-- The arena's surroundings contain the oracle contract at `oracle`, whose state `view`
    shows. A call to it may fail; during the other calls, and between the arena's own,
    anybody may call the oracle. -/
structure HasOracle (env : Env H) (oracle : Address) (view : H → OracleState) (cap : ℕ) :
    Prop where
  answers : ∀ {now h bps h'}, env.getCurrentYieldBps now oracle h = some (bps, h') →
    bps = Oracle.getCurrentYieldBps (view h) ∧ OracleMoves cap (view h) (view h')
  transfer : ∀ {now token sender recipient amount h h'},
    env.transfer now token sender recipient amount h = some h' → OracleMoves cap (view h) (view h')
  deposit : ∀ {now vault sender amount h h'}, env.deposit now vault sender amount h = some h' →
    OracleMoves cap (view h) (view h')
  withdrawAll : ∀ {now vault sender h x h'}, env.withdrawAll now vault sender h = some (x, h') →
    OracleMoves cap (view h) (view h')
  balanceOf : ∀ {now vault user h x h'}, env.balanceOf now vault user h = some (x, h') →
    OracleMoves cap (view h) (view h')
  evolves : ∀ {now h h'}, env.evolves now h h' → OracleMoves cap (view h) (view h')

/-! ## The oracle's part -/

/-- The rate and the ceiling are at most `cap`. -/
def CappedBy (cap : ℕ) (s : OracleState) : Prop :=
  Oracle.getCurrentYieldBps s ≤ cap ∧ getMaxYieldBps s ≤ cap

section Oracle

variable {cap : ℕ} {s s' u : OracleState} {a : OracleAction}

theorem OracleMoves.refl (s : OracleState) : OracleMoves cap s s := ⟨[], .nil, by simp⟩

theorem OracleMoves.trans (h : OracleMoves cap s s') (h' : OracleMoves cap s' u) :
    OracleMoves cap s u := by
  obtain ⟨tr, hrun, hcap⟩ := h
  obtain ⟨tr', hrun', hcap'⟩ := h'
  refine ⟨tr' ++ tr, hrun.append hrun', fun e he => ?_⟩
  rcases List.mem_append.mp he with he | he
  · exact hcap' e he
  · exact hcap e he

theorem CappedBy.step (hdefault : defaultMaxYieldBps ≤ cap) (h : CappedBy cap s)
    (hs : OracleStep s a s') (hcap : KeepsCap cap a) : CappedBy cap s' := by
  obtain ⟨hrate, hmax⟩ := h
  obtain ⟨hexec⟩ := hs
  cases exec_effect hexec with
  | initialized _ hle _ => exact ⟨hle.trans hdefault, hdefault⟩
  | rateSet _ hle _ => exact ⟨hle.trans hmax, hmax⟩
  | maxSet _ _ => exact ⟨hrate, hcap _ rfl⟩
  | proposed _ _ => exact ⟨hrate, hmax⟩
  | accepted _ _ _ => exact ⟨hrate, hmax⟩

/-- The oracle stays below the cap. -/
theorem CappedBy.moves (hdefault : defaultMaxYieldBps ≤ cap) (h : CappedBy cap s)
    (hmoves : OracleMoves cap s s') : CappedBy cap s' := by
  obtain ⟨tr, hrun, hcap⟩ := hmoves
  induction hrun with
  | nil => exact h
  | snoc _ hs ih =>
    exact (ih fun e he => hcap e (List.mem_cons_of_mem _ he)).step hdefault hs
      (hcap _ List.mem_cons_self)

end Oracle

/-! ## What the arena records -/

/-- The records of all rounds have rates up to `cap`. -/
structure RatesCapped (cap : ℕ) (s : ArenaStorage) : Prop where
  snapshot : ∀ round snapshot, s.yieldSnapshot round = some snapshot → snapshot.rateBps ≤ cap
  result : ∀ round result, s.roundResult round = some result →
    result.yieldSnapshot.rateBps ≤ cap
  rate : ∀ round bps, s.roundYieldBps round = some bps → bps ≤ cap

theorem RatesCapped.of_eq {cap : ℕ} {s s' : ArenaStorage} (h : RatesCapped cap s)
    (hsnapshot : s'.yieldSnapshot = s.yieldSnapshot) (hresult : s'.roundResult = s.roundResult)
    (hrate : s'.roundYieldBps = s.roundYieldBps) : RatesCapped cap s' where
  snapshot := hsnapshot ▸ h.snapshot
  result := hresult ▸ h.result
  rate := hrate ▸ h.rate

/-- The oracle that an `initialize` names. -/
def Action.oracleGiven : Action H → Option Address
  | .call _ (.initializeArena args) => some args.oracleContract
  | _ => none

section Records

variable {env : Env H} {oracle : Address} {view : H → OracleState} {cap : ℕ}
  {w w' : World H} {config : ArenaConfig} {auths : List Address} {c : Call}

/-- The three records of a round have the rate that the oracle answered, or 0. -/
theorem settleRound_rate (hnodup : w.storage.loadAllPlayers.Nodup) : ∃ eliminated survivors,
    let bps := (fetchYieldBps env config.oracleContract w).1
    let s := (settleRound env config
      { w with storage := { w.storage with reentrancyGuard := some true } }).storage
    let snapshot : YieldSnapshot := ⟨config.round, bps, roundYield env config w⟩
    s.yieldSnapshot = Function.update w.storage.yieldSnapshot config.round (some snapshot) ∧
      s.roundResult = Function.update w.storage.roundResult config.round
        (some ⟨config.round, eliminated, survivors, snapshot⟩) ∧
      s.roundYieldBps = Function.update w.storage.roundYieldBps config.round (some bps) := by
  obtain ⟨bps, eliminated, events, heq⟩ := @settleRound_eq H env w config hnodup
  -- the result of the round has the snapshot that `snapshot_yield` took
  have hresult : ∃ dropped survivors, (settleRound env config
      { w with storage := { w.storage with reentrancyGuard := some true } }).storage.roundResult
        config.round = some ⟨config.round, dropped, survivors, (snapshotYield env config config.round
          { w with storage := { w.storage with reentrancyGuard := some true } }).1⟩ := by
    refine ⟨_, _, roundResult_settlePlayers ?_⟩
    obtain ⟨bps', events', hsnap⟩ := @snapshotYield_eq H env
      { w with storage := { w.storage with reentrancyGuard := some true } } config config.round
    rw [show satAddU32 config.roundCount 1 = config.round from rfl, hsnap]
    exact hnodup
  obtain ⟨dropped, survivors, hresult⟩ := hresult
  have hbps : bps = (fetchYieldBps env config.oracleContract w).1 := by
    rw [heq] at hresult
    dsimp only at hresult
    rw [Function.update_self] at hresult
    have hsnap := congrArg (fun r => r.yieldSnapshot.rateBps) (Option.some.inj hresult)
    refine hsnap.trans ?_
    show (fetchYieldBps env config.oracleContract
      { w with storage := { w.storage with reentrancyGuard := some true } }).1 = _
    unfold fetchYieldBps
    cases env.getCurrentYieldBps w.now config.oracleContract w.outside with
    | none => rfl
    | some _ => rfl
  rw [heq, ← hbps]
  exact ⟨eliminated, _, rfl, rfl, rfl⟩

/-- The rate that a round records. -/
theorem HasOracle.fetched (ho : HasOracle env oracle view cap)
    (hcapped : CappedBy cap (view w.outside)) : (fetchYieldBps env oracle w).1 ≤ cap := by
  unfold fetchYieldBps
  cases hb : env.getCurrentYieldBps w.now oracle w.outside with
  | none => exact Nat.zero_le _
  | some r =>
    have hans := (ho.answers hb).1
    exact hans.le.trans hcapped.1

/-- An update by a record below the cap. -/
theorem le_of_update {α : Type*} {f : ℕ → Option α} {round : ℕ} {x : α} {rate : α → ℕ}
    (hf : ∀ n y, f n = some y → rate y ≤ cap) (hx : rate x ≤ cap) :
    ∀ n y, Function.update f round (some x) n = some y → rate y ≤ cap := by
  intro n y hy
  by_cases hn : n = round
  · subst hn
    rw [Function.update_self] at hy
    obtain rfl := Option.some.inj hy
    exact hx
  · rw [Function.update_of_ne hn] at hy
    exact hf n y hy

/-- What the arena knows of its oracle, and has recorded. -/
structure CappedRun (oracle : Address) (view : H → OracleState) (cap : ℕ) (w : World H) :
    Prop where
  capped : CappedBy cap (view w.outside)
  asked : ∀ config, w.storage.config = some config → config.oracleContract = oracle
  recorded : RatesCapped cap w.storage

theorem HasOracle.payEach (ho : HasOracle env oracle view cap) {now : ℕ} {token : Address}
    {amount : ℤ} : ∀ (players : List Address) {h h' : H},
      payEach env now token amount players h = some h' → OracleMoves cap (view h) (view h') := by
  intro players
  induction players with
  | nil =>
    intro h h' hpay
    obtain rfl := Option.some.inj hpay
    exact .refl _
  | cons player players ih =>
    intro h h' hpay
    obtain ⟨h₁, htr, hrest⟩ := Option.bind_eq_some_iff.mp hpay
    exact (ho.transfer htr).trans (ih hrest)

theorem HasOracle.withdrawIfJoined (ho : HasOracle env oracle view cap) {now : ℕ} {h h' : H}
    (hwd : withdrawIfJoined env config now h = some h') : OracleMoves cap (view h) (view h') := by
  unfold Arena.withdrawIfJoined at hwd
  split_ifs at hwd
  · obtain ⟨⟨x, h₁⟩, hx, rfl⟩ := Option.map_eq_some_iff.mp hwd
    exact ho.withdrawAll hx
  · obtain rfl := Option.some.inj hwd
    exact .refl _

theorem HasOracle.vaultBalanceOr (ho : HasOracle env oracle view cap) (now : ℕ)
    (vault : Address) (d : ℤ) (h : H) :
    OracleMoves cap (view h) (view (vaultBalanceOr env now vault d h).2) := by
  unfold Arena.vaultBalanceOr
  cases hb : env.balanceOf now vault env.here h with
  | none => exact .refl _
  | some r => exact ho.balanceOf hb

/-- A withdrawal that may fail. -/
theorem HasOracle.tryWithdrawAll (ho : HasOracle env oracle view cap) (now : ℕ)
    (vault : Address) (d : ℤ) (h : H) :
    OracleMoves cap (view h) (view ((env.withdrawAll now vault env.here h).getD (d, h)).2) := by
  cases hb : env.withdrawAll now vault env.here h with
  | none => exact .refl _
  | some r => exact ho.withdrawAll hb

theorem HasOracle.roundReading (ho : HasOracle env oracle view cap)
    (hasked : config.oracleContract = oracle) :
    OracleMoves cap (view w.outside) (view (roundReading env config w).2) := by
  refine OracleMoves.trans ?_ (ho.vaultBalanceOr w.now config.yieldVault _ _)
  unfold fetchYieldBps
  rw [hasked]
  cases hb : env.getCurrentYieldBps w.now oracle w.outside with
  | none => exact .refl _
  | some r => exact (ho.answers hb).2

/-- One call of the arena. -/
theorem CappedRun.call (ho : HasOracle env oracle view cap)
    (hdefault : defaultMaxYieldBps ≤ cap) (h : CappedRun oracle view cap w) (hw : WellFormed w)
    (hargs : ∀ args, c = .initializeArena args → args.oracleContract = oracle)
    (hexec : exec env auths c w = .ok w') : CappedRun oracle view cap w' := by
  have hkeep : ∀ {u : World H} {config config' : ArenaConfig},
      OracleMoves cap (view w.outside) (view u.outside) → w.storage.config = some config →
      u.storage.config = some config' → config'.oracleContract = config.oracleContract →
      u.storage.yieldSnapshot = w.storage.yieldSnapshot →
      u.storage.roundResult = w.storage.roundResult →
      u.storage.roundYieldBps = w.storage.roundYieldBps → CappedRun oracle view cap u := by
    intro u config config' hmoves hc hc' hsame h1 h2 h3
    refine ⟨h.capped.moves hdefault hmoves, fun config₁ hc₁ => ?_, h.recorded.of_eq h1 h2 h3⟩
    obtain rfl := Option.some.inj (hc'.symm.trans hc₁)
    exact hsame.trans (h.asked config hc)
  cases exec_effect hexec with
  | @initialized args _ _ _ _ _ _ hbal =>
    refine ⟨h.capped.moves hdefault (ho.balanceOf hbal), fun config hc => ?_,
      h.recorded.of_eq rfl rfl rfl⟩
    obtain rfl := Option.some.inj hc
    exact hargs args rfl
  | administered _ hc hc' _ _ => exact hkeep (.refl _) hc hc' rfl rfl rfl rfl
  | joined _ _ hc _ _ _ _ _ _ htr hdep =>
    exact hkeep ((ho.transfer htr).trans (ho.deposit hdep)) hc rfl rfl rfl rfl rfl
  | committed _ hc => exact hkeep (.refl _) hc hc rfl rfl rfl rfl
  | revealed _ hc => exact hkeep (.refl _) hc hc rfl rfl rfl rfl
  | roundStarted hc => exact hkeep (ho.vaultBalanceOr _ _ _ _) hc rfl rfl rfl rfl rfl
  | @roundResolved config _ _ hc _ _ _ _ _ =>
    have hasked := h.asked config hc
    have hrate : (fetchYieldBps env config.oracleContract w).1 ≤ cap := by
      rw [hasked]
      exact ho.fetched h.capped
    obtain ⟨eliminated, survivors, hsnapshot, hresult, hyield⟩ :=
      @settleRound_rate H env w config hw.nodup
    obtain ⟨bps, _, events, heq⟩ := @settleRound_eq H env w config hw.nodup
    refine ⟨?_, fun config' hc' => ?_, ⟨?_, ?_, ?_⟩⟩
    · rw [heq]
      exact h.capped.moves hdefault (ho.roundReading hasked)
    · rw [heq] at hc'
      obtain rfl := Option.some.inj hc'
      exact hasked
    · rw [hsnapshot]
      exact le_of_update h.recorded.snapshot hrate
    · rw [hresult]
      exact le_of_update h.recorded.result hrate
    · rw [hyield]
      exact le_of_update h.recorded.rate hrate
  | cancelled _ hc _ _ _ hwd => exact hkeep (ho.withdrawIfJoined hwd) hc rfl rfl rfl rfl rfl
  | expired _ hc _ _ _ hwd hpay =>
    exact hkeep ((ho.withdrawIfJoined hwd).trans (ho.payEach _ hpay)) hc rfl rfl rfl rfl rfl
  | @claimed _ config _ _ between _ _ _ hc _ _ _ _ hwd _ htr =>
    have hmoves := ho.tryWithdrawAll w.now config.yieldVault config.payout w.outside
    rw [hwd] at hmoves
    exact hkeep (hmoves.trans (ho.transfer htr)) hc rfl rfl rfl rfl rfl
  | @forceCancelled config _ hc _ _ =>
    refine hkeep ?_ hc rfl rfl rfl rfl rfl
    show OracleMoves cap (view w.outside) (view (((env.withdrawAll w.now config.yieldVault env.here
      w.outside).map (·.2)).getD w.outside))
    cases hb : env.withdrawAll w.now config.yieldVault env.here w.outside with
    | none => exact .refl _
    | some r => exact ho.withdrawAll hb
  | forceCancelledAgain _ hc _ _ => exact hkeep (.refl _) hc hc rfl rfl rfl rfl
  | refunded _ hc _ _ _ htr => exact hkeep (ho.transfer htr) hc hc rfl rfl rfl rfl

/-- In every run of an arena whose oracle is the oracle contract, deployed fresh, and whose
    ceiling is never set above `cap`: no record of any round has a rate above `cap`. -/
theorem rates_capped (ho : HasOracle env oracle view cap) (hdefault : defaultMaxYieldBps ≤ cap)
    {outside : H} {now : ℕ} {tr : List (World H × Action H)}
    (hfresh : OracleMoves cap .fresh (view outside))
    (hrun : Run (Step env) (World.fresh outside now) tr w)
    (hargs : ∀ e ∈ tr, ∀ auths args, e.2 = .call auths (.initializeArena args) →
      args.oracleContract = oracle) : RatesCapped cap w.storage := by
  have hall : CappedRun oracle view cap w := by
    induction hrun with
    | nil =>
      have hzero : CappedBy cap .fresh := ⟨Nat.zero_le _, hdefault⟩
      refine ⟨hzero.moves hdefault hfresh, fun config hc => ?_, ⟨?_, ?_, ?_⟩⟩
      · cases hc
      all_goals
        intro round record hrecord
        cases hrecord
    | snoc hr hs ih =>
      have hold := ih fun e he => hargs e (List.mem_cons_of_mem _ he)
      cases hs with
      | call _ hexec =>
        exact hold.call ho hdefault (wellFormed_of_run hr)
          (fun args hc => hargs _ List.mem_cons_self _ args (congrArg _ hc)) hexec
      | external he => exact ⟨hold.capped.moves hdefault (ho.evolves he), hold.asked, hold.recorded⟩
      | tick _ _ => exact ⟨hold.capped, hold.asked, hold.recorded⟩
  exact hall.recorded

end Records

/-! ## An oracle beside the other contracts -/

/-- The oracle contract at `oracle`, beside surroundings that do not contain one. -/
def withOracle (env : Env H) (oracle : Address) (cap : ℕ) : Env (H × OracleState) where
  here := env.here
  mayAuthorize := env.mayAuthorize
  evolves now h h' := env.evolves now h.1 h'.1 ∧ OracleMoves cap h.2 h'.2
  sha256 := env.sha256
  transfer now token sender recipient amount h :=
    (env.transfer now token sender recipient amount h.1).map (·, h.2)
  deposit now vault sender amount h := (env.deposit now vault sender amount h.1).map (·, h.2)
  withdrawAll now vault sender h :=
    (env.withdrawAll now vault sender h.1).map fun r => (r.1, r.2, h.2)
  balanceOf now vault user h := (env.balanceOf now vault user h.1).map fun r => (r.1, r.2, h.2)
  getCurrentYieldBps _ address h :=
    if address = oracle then some (Oracle.getCurrentYieldBps h.2, h) else none
  uploaded wasmHash h := env.uploaded wasmHash h.1

theorem withOracle_hasOracle (env : Env H) (oracle : Address) (cap : ℕ) :
    HasOracle (withOracle env oracle cap) oracle Prod.snd cap where
  answers {now h bps h'} ho := by
    obtain ⟨rfl, rfl⟩ := Prod.mk.inj (Option.some.inj ((if_pos rfl).symm.trans ho))
    exact ⟨rfl, .refl _⟩
  transfer ht := by
    obtain ⟨h₁, -, rfl⟩ := Option.map_eq_some_iff.mp ht
    exact .refl _
  deposit hd := by
    obtain ⟨h₁, -, rfl⟩ := Option.map_eq_some_iff.mp hd
    exact .refl _
  withdrawAll hw := by
    obtain ⟨r, -, heq⟩ := Option.map_eq_some_iff.mp hw
    cases heq
    exact .refl _
  balanceOf hb := by
    obtain ⟨r, -, heq⟩ := Option.map_eq_some_iff.mp hb
    cases heq
    exact .refl _
  evolves he := he.2

instance (cap : ℕ) : DecidablePred (withOracle (reference false) ⟨3⟩ cap).mayAuthorize :=
  fun a => inferInstanceAs (Decidable (10 ≤ a.id))

/-- The oracle of the sample game: 20 has set its rate to 500. -/
def sampleOracle : OracleState := ⟨some ⟨20⟩, some 500, some defaultMaxYieldBps, none, []⟩

/-- The sample game is resolved, and records the rate of its oracle. -/
theorem rates_capped_game : ∃ tr w, Run (Step (withOracle (reference false) ⟨3⟩ 5000))
      (World.fresh (VaultState.sample, sampleOracle) 0) tr w ∧
    w.storage.roundYieldBps 1 = some 500 ∧ RatesCapped 5000 w.storage := by
  obtain ⟨tr, w, hrun, hrate, hcalls⟩ : ∃ tr w,
      Run (Step (withOracle (reference false) ⟨3⟩ 5000))
          (World.fresh (VaultState.sample, sampleOracle) 0) tr w ∧
        w.storage.roundYieldBps 1 = some 500 ∧
        ∀ e ∈ tr.map (fun e => Action.oracleGiven e.2), e = none ∨ e = some ⟨3⟩ :=
    exists_run (sampleGame 100 ++ [.call [⟨10⟩] .resolveRound]) (by decide +kernel)
  have hset : OracleMoves 5000 .fresh sampleOracle := by
    have hstep : OracleStep .fresh ⟨[⟨20⟩], .initializeOracle ⟨20⟩ 500⟩ sampleOracle := .call rfl
    refine ⟨_, .single hstep, fun e he => ?_⟩
    obtain rfl := List.mem_singleton.mp he
    rintro m ⟨⟩
  refine ⟨tr, w, hrun, hrate, rates_capped (withOracle_hasOracle _ _ _) le_rfl hset hrun
    fun e he auths args hcall => ?_⟩
  rcases hcalls _ (List.mem_map_of_mem he) with hnone | hgiven
  · rw [hcall] at hnone
    cases hnone
  · rw [hcall] at hgiven
    exact Option.some.inj hgiven

end InverseArena.Composition
