import InverseArena.Arena.Played

/-!
# A game that goes on

Two players who reveal the same choice in every round are never eliminated, so
that the number of rounds is not bounded by the number of players.

Results:
* `Undecided.exists_revealed`, `BothRevealed.exists_resolved`: one round of such
  a game, from any state it can be in.
* `exists_undecided`: it lasts for `u32::MAX + 1` rounds.
-/

namespace InverseArena.Arena

open Host MachineInt Transition

/-- An open arena after `n` rounds, in which players 11 and 12 are left. -/
structure Undecided (n : ℕ) (w : World VaultState) : Prop where
  configured : ∃ config, w.storage.config = some config ∧ config.admin = ⟨10⟩ ∧
    config.paused = false ∧ config.state = .Open
  players : w.storage.activePlayers = [⟨11⟩, ⟨12⟩]
  minimum : w.storage.loadMinPlayers = 2
  supply : w.outside.ledger.supply ≤ 200 + n
  now : w.now = n

/-- Both have revealed heads in the next round, the vault has earned 1, and the
    round can be resolved. -/
structure BothRevealed (n : ℕ) (w : World VaultState) (config : ArenaConfig) : Prop where
  configured : w.storage.config = some config
  admin : config.admin = ⟨10⟩
  unpaused : config.paused = false
  active : config.state = .Active
  players : w.storage.activePlayers = [⟨11⟩, ⟨12⟩]
  minimum : w.storage.loadMinPlayers = 2
  supply : w.outside.ledger.supply ≤ 200 + (n + 1)
  now : w.now = n + 1
  started : w.storage.roundStart = some n
  duration : w.storage.loadRoundDuration = 1
  revealed : ∀ p ∈ w.storage.activePlayers, w.storage.choice (p, config.round) = some .Heads
  earned : w.outside.position = w.storage.loadLastVaultBalance + 1

theorem run_effect {H : Type} {env : Env H} {s w w' : World H} {tr : List (World H × Action H)}
    (hr : Run (Step env) s tr w) (auths : List Address) (c : Call)
    (hadm : c.isAdministrative = false) (hauth : ∀ a ∈ auths, env.mayAuthorize a)
    (he : Effect env auths w c w') : Run (Step env) s ((w, .call auths c) :: tr) w' :=
  hr.snoc (.call hauth (exec_of_effect hadm he))

section Keys

variable {V : Type} (f : Address × ℕ → Option V) (round : ℕ) (x y : Option V)

theorem update_second :
    Function.update f (⟨11⟩, round) x (⟨12⟩, round) = f (⟨12⟩, round) :=
  Function.update_of_ne (by simp) _ _

theorem update_first : Function.update (Function.update f (⟨11⟩, round) x) (⟨12⟩, round) y
    (⟨11⟩, round) = x := by
  rw [Function.update_of_ne (by simp), Function.update_self]

end Keys

/-- The next round is started, and both players commit to heads and reveal it. -/
theorem Undecided.exists_revealed {n : ℕ} {w : World VaultState} (h : Undecided n w)
    (hn : n ≤ u32Max) : ∃ tr u config, Run (Step (reference false)) w tr u ∧
      BothRevealed n u config ∧ SameRecords w u := by
  obtain ⟨config, hc, hadmin, hpaused, hopen⟩ := h.configured
  have h₁ : ⟨11⟩ ∈ w.storage.activePlayers := by rw [h.players]; simp
  have h₂ : ⟨12⟩ ∈ w.storage.activePlayers := by rw [h.players]; simp
  obtain ⟨s₁, hs₁, ha₁⟩ := exists_of_mem_activePlayers h₁
  obtain ⟨s₂, hs₂, ha₂⟩ := exists_of_mem_activePlayers h₂
  obtain ⟨outside, hgrow, hpos, hsupply⟩ := @VaultState.exists_grow 1 w.outside (by omega) (by
    have := h.supply
    unfold u32Max at hn
    unfold i128Max
    omega)
  have hlate : w.now + 1 ≤ u64Max := by
    rw [h.now]
    unfold u64Max
    unfold u32Max at hn
    omega
  have hdeadline : satAddU64 w.now 1 = w.now + 1 := min_eq_left hlate
  have hsalt : computeCommitment (reference false) .Heads (Vector.replicate 32 0) =
      sampleCommitment .Heads := rfl
  have r₀ : Run (Step (reference false)) w [] w := .nil
  have r₁ := run_effect r₀ [⟨10⟩] (.startRound 1) rfl (by decide)
    (.roundStarted hc (by simp [hadmin]) hpaused hopen (by rw [h.minimum, h.players]; decide))
  have r₂ := r₁.snoc (.external ((@Change.grow false 1).evolves hgrow))
  have r₃ := run_effect r₂ [⟨11⟩] (.submitCommitment ⟨11⟩ (sampleCommitment .Heads)) rfl
    (by decide) (.committed (by simp) rfl hpaused rfl (by dsimp only; omega) hs₁ ha₁)
  have r₄ := run_effect r₃ [⟨12⟩] (.submitCommitment ⟨12⟩ (sampleCommitment .Heads)) rfl
    (by decide) (.committed (by simp) rfl hpaused rfl (by dsimp only; omega) hs₂ ha₂)
  have r₅ := r₄.snoc (@Step.tick _ _ _ (w.now + 1) (by dsimp only; omega) hlate)
  have r₆ := run_effect r₅ [⟨11⟩] (.revealChoice ⟨11⟩ .Heads (Vector.replicate 32 0)) rfl
    (by decide) (.revealed (by simp) rfl hpaused hs₁ ha₁
      (if_pos ⟨rfl, (List.mem_filter.mp h₁).1⟩) hdeadline.le (by
        rw [hsalt]
        dsimp only
        exact update_first _ _ _ _))
  have r₇ := run_effect r₆ [⟨12⟩] (.revealChoice ⟨12⟩ .Heads (Vector.replicate 32 0)) rfl
    (by decide) (.revealed (by simp) rfl hpaused hs₂ ha₂ (by
      dsimp only
      exact (update_second _ _ _).trans (if_pos ⟨rfl, (List.mem_filter.mp h₂).1⟩)) hdeadline.le (by
        rw [hsalt]
        dsimp only
        exact Function.update_self _ _ _))
  refine ⟨_, _, { config with commitDeadline := satAddU64 w.now 1, state := .Active }, r₇, ?_,
    .of_quiet ⟨rfl, rfl, rfl, rfl, _, _, hc, rfl, rfl, rfl, nofun⟩⟩
  exact {
    configured := rfl
    admin := hadmin
    unpaused := hpaused
    active := rfl
    players := h.players
    minimum := h.minimum
    supply := by
      have := h.supply
      dsimp only
      omega
    now := by
      dsimp only
      rw [h.now]
    started := by
      dsimp only
      rw [h.now]
    duration := rfl
    revealed := by
      show ∀ p ∈ w.storage.activePlayers, _
      rw [h.players]
      intro p hp
      dsimp only
      simp only [List.mem_cons, List.not_mem_nil, or_false] at hp
      rcases hp with rfl | rfl
      · exact update_first _ _ _ _
      · exact Function.update_self _ _ _
    earned := hpos }

/-- The admin resolves the round, and nobody is out. -/
theorem BothRevealed.exists_resolved {n : ℕ} {u : World VaultState} {config : ArenaConfig}
    (h : BothRevealed n u config) (hw : WellFormed u) :
    ∃ w', Step (reference false) u (.call [⟨10⟩] .resolveRound) w' ∧ Undecided (n + 1) w' := by
  have hgrace : satAddU64 n u.storage.loadRoundDuration ≤ u.now := by
    rw [h.duration, h.now]
    exact min_le_left _ _
  refine ⟨_, .call (by decide) (exec_of_effect rfl (.roundResolved hw.guard h.configured
    (by simp [h.admin]) h.unpaused h.active h.started hgrace)), ?_⟩
  have hsurv := survivorsOf_unanimous h.revealed
  rw [h.players] at hsurv
  obtain ⟨bps, eliminated, events, heq⟩ :=
    @settleRound_eq VaultState (reference false) u config hw.nodup
  rw [heq]
  refine ⟨⟨_, rfl, h.admin, h.unpaused, ?_⟩, ?_, h.minimum, h.supply, h.now⟩
  · dsimp only
    rw [hsurv]
    rfl
  · refine Eq.trans ?_ hsurv
    exact activePlayers_resolved hw.known rfl rfl

theorem BothRevealed.roundYield_eq {n : ℕ} {u : World VaultState} {config : ArenaConfig}
    (h : BothRevealed n u config) : roundYield (reference false) config u = 1 := by
  have hread : (roundReading (reference false) config u).1 = u.outside.position := rfl
  unfold roundYield
  rw [hread, h.earned, if_pos (by omega), add_sub_cancel_left]
  exact wrapI128_of_mem (by decide) (by decide)

/-- Both can go on like this for `u32::MAX + 1` rounds. -/
theorem exists_undecided (n : ℕ) (hn : n ≤ u32Max + 1) : ∃ tr w,
    Run (Step (reference false)) (World.fresh VaultState.sample 0) tr w ∧ Undecided n w ∧
      w.storage.roundCount = min n u32Max ∧ w.storage.cumulativeYield = n ∧
      ∀ r result, w.storage.roundResult r = some result → result.yieldSnapshot.accrued = 1 := by
  induction n with
  | zero =>
    obtain ⟨tr, w, hrun, hconfig, hplayers, hmin, hsupply, hnow, hcount, hyield⟩ : ∃ tr w,
        Run (Step (reference false)) (World.fresh VaultState.sample 0) tr w ∧
          (∃ config ∈ w.storage.config, config.admin = ⟨10⟩ ∧ config.paused = false ∧
            config.state = .Open) ∧
          w.storage.activePlayers = [⟨11⟩, ⟨12⟩] ∧ w.storage.loadMinPlayers = 2 ∧
          w.outside.ledger.supply ≤ 200 ∧ w.now = 0 ∧ w.storage.roundCount = 0 ∧
          w.storage.cumulativeYield = 0 :=
      exists_run (sampleJoins 100) (by decide +kernel)
    refine ⟨tr, w, hrun, ⟨hconfig, hplayers, hmin, ?_, hnow⟩, ?_, hyield, fun r result hr => ?_⟩
    · exact hsupply
    · rw [hcount]
      rfl
    · have hstored := ((recorded_of_run hrun).stored r).mp (by rw [hr]; rfl)
      omega
  | succ n ih =>
    obtain ⟨tr, w, hrun, hw, hcount, hyield, hall⟩ := ih (by omega)
    obtain ⟨tr', u, config, hrun', hu, hsame⟩ := hw.exists_revealed (by omega)
    have hbefore := hrun.append hrun'
    obtain ⟨w', hstep, hw'⟩ := hu.exists_resolved (wellFormed_of_run hbefore)
    obtain ⟨config', result, hrec⟩ := hstep.records (wellFormed_of_run hbefore) rfl
    obtain rfl := Option.some.inj (hu.configured.symm.trans hrec.configured)
    have haccrued := hrec.accrued.trans hu.roundYield_eq
    refine ⟨_, w', hbefore.snoc hstep, hw', ?_, ?_, fun r result' hr => ?_⟩
    · rw [hrec.count, hrec.round_eq, hsame.count, hcount]
      omega
    · rw [hrec.yield_eq, hsame.yield, hyield, haccrued]
      refine satAddI128_of_mem ?_ ?_
      · unfold i128Min
        omega
      · unfold i128Max
        unfold u32Max at hn
        push_cast
        omega
    · rw [hrec.results, hsame.results] at hr
      by_cases hne : r = config.round
      · rw [hne, Function.update_self] at hr
        obtain rfl := Option.some.inj hr
        exact haccrued
      · rw [Function.update_of_ne hne] at hr
        exact hall r result' hr

end InverseArena.Arena
