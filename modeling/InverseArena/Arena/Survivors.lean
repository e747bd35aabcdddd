import InverseArena.Arena.Payouts

/-!
# Does a round leave a survivor?

`resolve_round` eliminates every active player without a revealed choice
(`contract/arena/src/lib.rs`, lines 1026-1029), and among the revealed choices
never all of them. So the last survivors are lost exactly in rounds in which
nobody revealed.

Results:
* `resolve_leaves_survivor_iff`: a successful `resolve_round` leaves an active
  player, and stores a winner if it finishes the game, iff some active player
  had revealed a choice.
* `resolve_leaves_nobody`: two players who do not reveal are both eliminated,
  and the game is finished without a winner.
-/

namespace InverseArena.Arena

open Transition

variable {H : Type}

/-- Some active player has revealed a choice for the round being played. -/
def SomeoneRevealed (w : World H) : Prop :=
  ∃ config ∈ w.storage.config, ∃ p ∈ w.storage.activePlayers,
    w.storage.choice (p, config.round) ≠ none

instance (w : World H) : Decidable (SomeoneRevealed w) := by
  unfold SomeoneRevealed
  infer_instance

/-- An active player is left, and a finished game has a winner. -/
def LeavesSurvivor (w : World H) : Prop :=
  (∃ p, w.storage.isActive p = true) ∧ (InState w .Finished → ∃ p, w.storage.winner = some p)

/-- The survivors of the round are the players active after `resolve_round`,
    which finishes the game iff there is at most one. -/
theorem resolveRound_cases {env : Env H} {w w' : World H} {auths : List Address}
    (hw : WellFormed w) (h : exec env auths .resolveRound w = .ok w') :
    ∃ config, w.storage.config = some config ∧ config.state = .Active ∧
      (∀ p, w'.storage.isActive p = true ↔ p ∈ survivorsOf w.storage config.round) ∧
      (InState w' .Finished ↔ (survivorsOf w.storage config.round).length ≤ 1) ∧
      w'.storage.winner = if (survivorsOf w.storage config.round).length = 1 then
        (survivorsOf w.storage config.round).head? else w.storage.winner := by
  cases exec_effect h with
  | administered hadm => cases hadm
  | @roundResolved config _ hguard hc ha hp hs hstart hnow =>
    obtain ⟨bps, eliminated, events, heq⟩ := @settleRound_eq H env w config hw.nodup
    rw [heq]
    refine ⟨config, hc, hs, fun p => ?_, ?_, rfl⟩
    · exact isActive_withPlayersAfter hw.known
    · constructor
      · rintro ⟨config', hc', hs'⟩
        cases hc'
        by_contra hlt
        rw [if_neg (by exact hlt)] at hs'
        cases hs'
      · intro hle
        exact ⟨_, rfl, if_pos hle⟩

/-- `resolve_round` opens the arena again, or finishes the game. -/
theorem resolveRound_state {env : Env H} {w w' : World H} {auths : List Address}
    (hw : WellFormed w) (h : exec env auths .resolveRound w = .ok w') :
    ∃ config, w'.storage.config = some config ∧
      (config.state = .Open ∨ config.state = .Finished) := by
  cases exec_effect h with
  | administered hadm => cases hadm
  | @roundResolved config _ hguard hc ha hp hs hstart hnow =>
    obtain ⟨bps, eliminated, events, heq⟩ := @settleRound_eq H env w config hw.nodup
    rw [heq]
    refine ⟨_, rfl, ?_⟩
    dsimp only
    split_ifs
    · exact .inr rfl
    · exact .inl rfl

theorem leavesSurvivor_iff {env : Env H} {w w' : World H} {auths : List Address}
    (hw : WellFormed w) (h : exec env auths .resolveRound w = .ok w') :
    LeavesSurvivor w' ↔ SomeoneRevealed w := by
  obtain ⟨config, hc, -, hact, hfin, hwin⟩ := resolveRound_cases hw h
  have hrevealed : SomeoneRevealed w ↔ survivorsOf w.storage config.round ≠ [] := by
    rw [survivorsOf_ne_nil]
    constructor
    · rintro ⟨config', hc', p, hp, hch⟩
      obtain rfl := Option.some.inj (hc.symm.trans hc')
      obtain ⟨hmem, hactive⟩ := List.mem_filter.mp hp
      exact ⟨p, hmem, by rw [← ArenaStorage.isActive_eq]; exact hactive, hch⟩
    · rintro ⟨p, hmem, hactive, hch⟩
      refine ⟨config, hc, p, List.mem_filter.mpr ⟨hmem, ?_⟩, hch⟩
      rw [ArenaStorage.isActive_eq]
      exact hactive
  rw [hrevealed]
  constructor
  · rintro ⟨⟨p, hp⟩, -⟩
    exact List.ne_nil_of_mem ((hact p).mp hp)
  · intro hne
    obtain ⟨p, hp⟩ := List.exists_mem_of_ne_nil _ hne
    refine ⟨⟨p, (hact p).mpr hp⟩, fun hf => ?_⟩
    have hpos := List.length_pos_iff.mpr hne
    have hle := hfin.mp hf
    have hone : (survivorsOf w.storage config.round).length = 1 := by omega
    obtain ⟨q, hq⟩ := List.length_eq_one_iff.mp hone
    exact ⟨q, by rw [hwin, if_pos hone, hq]; rfl⟩

/-- In every reachable arena a successful `resolve_round` leaves a survivor iff
    some active player had revealed a choice for the round. -/
theorem resolve_leaves_survivor_iff {env : Env H} {outside : H} {now : ℕ}
    {tr : List (World H × Action H)} {w w' : World H} {auths : List Address}
    (hrun : Run (Step env) (World.fresh outside now) tr w)
    (h : Step env w (.call auths .resolveRound) w') : LeavesSurvivor w' ↔ SomeoneRevealed w := by
  cases h with
  | call _ hexec => exact leavesSurvivor_iff (wellFormed_of_run hrun) hexec

/-- A round in which player 11 reveals and player 12 does not. -/
theorem resolve_leaves_survivor_iff_game : ∃ tr w w',
    Run (Step (reference false)) (World.fresh VaultState.sample 0) tr w ∧
      Step (reference false) w (.call [⟨10⟩] .resolveRound) w' ∧
      LeavesSurvivor w' := by
  obtain ⟨tr, w, w', hrun, hstep, hrevealed⟩ : ∃ tr w w',
      Run (Step (reference false)) (World.fresh VaultState.sample 0) tr w ∧
        Step (reference false) w (.call [⟨10⟩] .resolveRound) w' ∧ SomeoneRevealed w :=
    exists_run_call (sampleGame 100) [⟨10⟩] .resolveRound (by decide +kernel)
  exact ⟨tr, w, w', hrun, hstep, (resolve_leaves_survivor_iff hrun hstep).mpr hrevealed⟩

/-- Two players join and nobody reveals: `resolve_round` eliminates both and
    finishes the game without a winner. -/
theorem resolve_leaves_nobody : ∃ tr w w',
    Run (Step (reference false)) (World.fresh VaultState.sample 0) tr w ∧
      Step (reference false) w (.call [⟨10⟩] .resolveRound) w' ∧
      (∀ p, ¬ w'.storage.isActive p = true) ∧ InState w' .Finished ∧ w'.storage.winner = none := by
  obtain ⟨tr, w, w', hrun, hstep, hnobody, hfin, hwin⟩ : ∃ tr w w',
      Run (Step (reference false)) (World.fresh VaultState.sample 0) tr w ∧
        Step (reference false) w (.call [⟨10⟩] .resolveRound) w' ∧
        w'.storage.activePlayers = [] ∧ InState w' .Finished ∧ w'.storage.winner = none :=
    exists_run_call (sampleJoins 100 ++ [.call [⟨10⟩] (.startRound 60), .tick 60]) [⟨10⟩]
      .resolveRound (by decide +kernel)
  refine ⟨tr, w, w', hrun, hstep, fun p hp => ?_, hfin, hwin⟩
  have hmem := (mem_activePlayers (wellFormed_of_run (hrun.snoc hstep)).known).mpr hp
  rw [hnobody] at hmem
  cases hmem

end InverseArena.Arena
