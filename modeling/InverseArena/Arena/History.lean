import InverseArena.Arena.Undecided

/-!
# The history of the rounds

The records of the rounds are complete, and they add up to the totals that the
arena keeps, until `round_count` saturates at `u32::MAX`
(`contract/arena/src/lib.rs`, line 617): from then on `resolve_round` overwrites
the last record.

Results:
* `round_history`: the records are those of the rounds `1..round_count`, and,
  as long as no number is used twice, they add up to the cumulative yield and
  to the number of inactive players.
* `round_history_overwritten`: after one round more they do not.
-/

namespace InverseArena.Arena

open MachineInt Transition

variable {H : Type}

/-- The vault of the reference environment always answers. -/
theorem vaultAnswers_reference {outside : VaultState} {now : ℕ}
    {tr : List (World VaultState × Action VaultState)} {w : World VaultState}
    (hrun : Run (Step (reference false)) (World.fresh outside now) tr w) :
    VaultAnswers (reference false) (played tr w) := by
  have hrange : ∀ h : VaultState, 0 ≤ h.position ∧ h.position ≤ i128Max := fun h =>
    ⟨h.position_nonneg, h.backed.trans (h.ledger.balance_le _)⟩
  intro p hp
  obtain ⟨⟨config, hc⟩, config', hc'⟩ := played_configured hrun p hp
  refine ⟨p.started.outside.position, p.resolved.outside.position, ?_, ?_,
    (hrange _).1, (hrange _).2, (hrange _).1, (hrange _).2⟩
  · unfold World.balanceAtStart
    rw [hc]
    rfl
  · unfold World.balanceAtResolve
    rw [hc']
    rfl

/-- In every reachable, configured arena whose vault has answered: a
    `RoundResult` and a `YieldSnapshot` are stored for exactly the numbers
    `1..round_count`; the accrued yield and the survivors stored for `r` are
    those of the last round resolved under the number `r`; and if `resolve_round`
    has succeeded at most `u32::MAX` times, the accrued yields, when their sum is
    an `i128`, add up to the cumulative yield, and the numbers of eliminated
    players to the number of inactive ones. -/
theorem round_history {env : Env H} {outside : H} {now : ℕ} {tr : List (World H × Action H)}
    {w : World H} {config : ArenaConfig} (hrun : Run (Step env) (World.fresh outside now) tr w)
    (hc : w.storage.config = some config) (hvault : VaultAnswers env (played tr w)) :
    (∀ r, (w.storage.roundResult r).isSome = true ↔ 1 ≤ r ∧ r ≤ config.roundCount) ∧
    (∀ r, (w.storage.yieldSnapshot r).isSome = true ↔ 1 ≤ r ∧ r ≤ config.roundCount) ∧
    (∀ r, 1 ≤ r → r ≤ config.roundCount → ∃ p result,
      (played tr w).find? (fun p => p.round = r) = some p ∧
      w.storage.roundResult r = some result ∧
      w.storage.yieldSnapshot r = some result.yieldSnapshot ∧
      result.yieldSnapshot.accrued = p.earned env ∧
      result.survivors = p.after.storage.activePlayers.length) ∧
    (tr.countP (fun e => e.2.isResolve) ≤ u32Max →
      (∑ r ∈ Finset.Icc 1 config.roundCount, w.storage.accruedIn r ≤ i128Max →
        config.cumulativeYield = ∑ r ∈ Finset.Icc 1 config.roundCount, w.storage.accruedIn r) ∧
      ∑ r ∈ Finset.Icc 1 config.roundCount, w.storage.eliminatedIn r =
        w.storage.inactivePlayers.length) := by
  have h := recorded_of_run hrun
  have hlen := length_played hrun
  have hcount : w.storage.roundCount = config.roundCount := by
    unfold ArenaStorage.roundCount
    rw [hc]
    rfl
  have hcum : w.storage.cumulativeYield = config.cumulativeYield := by
    unfold ArenaStorage.cumulativeYield
    rw [hc]
    rfl
  rw [← hcount, ← hcum, ← hlen]
  refine ⟨h.stored, fun r => ?_, fun r h1 h2 => ?_, fun hle => ⟨fun hsum => ?_, h.eliminated hle⟩⟩
  · rw [h.snapshot, Option.isSome_map]
    exact h.stored r
  · obtain ⟨result, hr⟩ := Option.isSome_iff_exists.mp ((h.stored r).mpr ⟨h1, h2⟩)
    obtain ⟨p, hfind, hsurv, haccrued⟩ := h.record r result hr
    have hp := hvault p (List.mem_of_find?_eq_some hfind)
    refine ⟨p, result, hfind, hr, ?_, haccrued fun q hq => ?_, hsurv⟩
    · rw [h.snapshot, hr]
      rfl
    · rw [List.mem_singleton.mp hq]
      exact hp
  · rw [h.yield hvault hle]
    exact min_eq_right hsum

/-- In the sample game, in which the vault earns 5, the one record says so, and
    that player 12 is out. -/
theorem round_history_game : ∃ tr w config,
    Run (Step (reference false)) (World.fresh VaultState.sample 0) tr w ∧
      w.storage.config = some config ∧ config.roundCount = 1 ∧ config.cumulativeYield = 5 ∧
      config.cumulativeYield = ∑ r ∈ Finset.Icc 1 config.roundCount, w.storage.accruedIn r ∧
      w.storage.inactivePlayers = [⟨12⟩] ∧
      ∑ r ∈ Finset.Icc 1 config.roundCount, w.storage.eliminatedIn r = 1 := by
  obtain ⟨tr, w, hrun, ⟨config, hc, hcount, hyield, hsum⟩, hinactive, hle⟩ : ∃ tr w,
      Run (Step (reference false)) (World.fresh VaultState.sample 0) tr w ∧
        (∃ config ∈ w.storage.config, config.roundCount = 1 ∧ config.cumulativeYield = 5 ∧
          ∑ r ∈ Finset.Icc 1 config.roundCount, w.storage.accruedIn r ≤ i128Max) ∧
        w.storage.inactivePlayers = [⟨12⟩] ∧ tr.countP (fun e => e.2.isResolve) ≤ u32Max :=
    exists_run (sampleGame 100 ++ [.outside (.grow 5), .call [⟨10⟩] .resolveRound])
      (by decide +kernel)
  obtain ⟨-, -, -, hsums⟩ := round_history hrun hc (vaultAnswers_reference hrun)
  obtain ⟨haccrued, heliminated⟩ := hsums hle
  refine ⟨tr, w, config, hrun, hc, hcount, hyield, haccrued hsum, hinactive, ?_⟩
  rw [heliminated, hinactive]
  rfl

/-- After `u32::MAX + 1` rounds in each of which the vault earned 1, the records
    add up to less than the cumulative yield. -/
theorem round_history_overwritten : ∃ tr w config,
    Run (Step (reference false)) (World.fresh VaultState.sample 0) tr w ∧
      w.storage.config = some config ∧ VaultAnswers (reference false) (played tr w) ∧
      config.cumulativeYield = u32Max + 1 ∧
      ∑ r ∈ Finset.Icc 1 config.roundCount, w.storage.accruedIn r = u32Max := by
  obtain ⟨tr, w, hrun, hw, hcount, hyield, hall⟩ := exists_undecided (u32Max + 1) le_rfl
  obtain ⟨config, hc, -⟩ := hw.configured
  have hrecorded := recorded_of_run hrun
  have hstored : w.storage.roundCount = u32Max := hcount.trans (min_eq_right (Nat.le_succ _))
  unfold ArenaStorage.roundCount at hcount
  unfold ArenaStorage.cumulativeYield at hyield
  rw [hc] at hcount hyield
  replace hcount : config.roundCount = u32Max := hcount.trans (min_eq_right (Nat.le_succ _))
  refine ⟨tr, w, config, hrun, hc, vaultAnswers_reference hrun, ?_, ?_⟩
  · exact_mod_cast hyield
  · have hone : ∀ r ∈ Finset.Icc 1 config.roundCount, w.storage.accruedIn r = 1 := by
      intro r hr
      rw [Finset.mem_Icc, hcount, ← hstored] at hr
      obtain ⟨result, hr⟩ := Option.isSome_iff_exists.mp ((hrecorded.stored r).mpr hr)
      unfold ArenaStorage.accruedIn
      rw [hrecorded.snapshot, hr]
      exact hall r result hr
    rw [Finset.sum_congr rfl hone, hcount]
    simp

end InverseArena.Arena
