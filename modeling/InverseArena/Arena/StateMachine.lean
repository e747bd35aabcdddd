import InverseArena.Arena.Payouts
import InverseArena.Arena.RevealWindow

/-!
# The contract refines its state machine

`state_machine.rs` says which changes of `config.state` are legal, while most
entry points assign the new state directly (`contract/arena/src/lib.rs`, lines
411-484, 600-752 and 860-887).

Results:
* `Effect.winner_eq`, `Step.settled_claimed`: only `resolve_round` stores a
  winner, and only `claim` settles the arena.
* `refines_state_machine`: in every reachable state every call keeps the state
  or takes a legal transition, and the winner and the prize flag go with it.
-/

namespace InverseArena.Arena

open Transition

variable {H : Type}

/-- The world right after the last `resolve_round`, in a run whose steps `tr`
    led to `w`. -/
def lastResolved : List (World H × Action H) → World H → Option (World H)
  | [], _ => none
  | (t, a) :: tr, w => if a.isResolve then some w else lastResolved tr t

theorem lastResolved_cons {tr : List (World H × Action H)} {t w : World H} {a : Action H} :
    lastResolved ((t, a) :: tr) w =
      if a.isResolve = true then some w else lastResolved tr t := rfl

section Steps

variable {env : Env H} {auths : List Address} {w w' : World H} {c : Call} {a : Action H}
  {tr : List (World H × Action H)}

/-- Only `resolve_round` changes the stored winner. -/
theorem Effect.winner_eq (h : Effect env auths w c w') (hc : c ≠ .resolveRound) :
    w'.storage.winner = w.storage.winner := by
  cases h with
  | roundResolved => exact absurd rfl hc
  | _ => rfl

theorem Step.winner_eq (h : Step env w a w') (ha : a.isResolve = false) :
    w'.storage.winner = w.storage.winner := by
  cases h with
  | call _ hexec =>
    refine (exec_effect hexec).winner_eq fun hc => ?_
    rw [hc] at ha
    cases ha
  | external _ => rfl
  | tick _ _ => rfl

/-- `resolve_round` stores the only player who is active after it, if there is
    just one. -/
theorem Step.winner_of_resolve (h : Step env w a w') (hw : WellFormed w) (hp : Payouts w)
    (ha : a.isResolve = true) (p : Address) :
    w'.storage.winner = some p ↔ w'.storage.activePlayers = [p] := by
  unfold Action.isResolve at ha
  split at ha
  · cases h with
    | call _ hexec =>
      cases exec_effect hexec with
      | administered hadm => cases hadm
      | @roundResolved config _ hguard hc hauth hpaused hs hstart hnow =>
        have hnone := (hp.undecided (.inr ⟨config, hc, hs⟩)).2.2
        obtain ⟨bps, eliminated, events, heq⟩ := @settleRound_eq H env w config hw.nodup
        rw [heq]
        refine Iff.trans ?_ (Eq.congr_left (Eq.symm (activePlayers_resolved hw.known rfl rfl)))
        dsimp only
        rw [hnone]
        generalize survivorsOf w.storage config.round = survivors
        cases survivors with
        | nil => simp
        | cons q l =>
          cases l with
          | nil => simp
          | cons q' l => simp
  · cases ha

/-- The winner is the player the last `resolve_round` left alone. -/
theorem winner_iff_of_run {outside : H} {now : ℕ}
    (hrun : Run (Step env) (World.fresh outside now) tr w) (p : Address) :
    w.storage.winner = some p ↔
      ∃ u, lastResolved tr w = some u ∧ u.storage.activePlayers = [p] := by
  refine hrun.history (I := fun tr w => w.storage.winner = some p ↔
    ∃ u, lastResolved tr w = some u ∧ u.storage.activePlayers = [p]) ?_ fun tr t a u hr ih hs => ?_
  · constructor
    · intro h
      cases h
    · rintro ⟨u, h, -⟩
      cases h
  · cases ha : a.isResolve with
    | false =>
      have hlast : lastResolved ((t, a) :: tr) u = lastResolved tr t := by
        rw [lastResolved_cons, if_neg (by simp [ha])]
      rw [hs.winner_eq ha, hlast]
      exact ih
    | true =>
      have hlast : lastResolved ((t, a) :: tr) u = some u := by
        rw [lastResolved_cons, if_pos ha]
      obtain ⟨⟨hw, hp⟩, -⟩ := run_of_fresh hr
      rw [hs.winner_of_resolve hw hp ha, hlast]
      simp

/-- The prize of a settled arena has been claimed. -/
def SettledClaimed (w : World H) : Prop :=
  InState w .Settled → w.storage.isPrizeClaimed = true

theorem SettledClaimed.frame (h : SettledClaimed w) {config config' : ArenaConfig}
    (hc : w.storage.config = some config) (hc' : w'.storage.config = some config')
    (hstate : config'.state = config.state ∨ config'.state ≠ .Settled)
    (hprize : w'.storage.prizeClaimed = w.storage.prizeClaimed) : SettledClaimed w' := by
  rintro ⟨config'', hc'', hs⟩
  obtain rfl := Option.some.inj (hc'.symm.trans hc'')
  rcases hstate with heq | hne
  · have hclaimed := h ⟨config, hc, heq.symm.trans hs⟩
    unfold ArenaStorage.isPrizeClaimed at hclaimed ⊢
    rw [hprize]
    exact hclaimed
  · exact absurd hs hne

/-- Only `claim` settles the arena, and it marks the prize as claimed. -/
theorem SettledClaimed.effect (h : SettledClaimed w) (hw : WellFormed w)
    (he : Effect env auths w c w') : SettledClaimed w' := by
  cases he with
  | initialized ha hnone hfee hlim hbal =>
    rintro ⟨config, hc, hs⟩
    obtain rfl := Option.some.inj hc
    cases hs
  | administered hadm hc hc' hlim => exact h.frame hc hc' (.inl rfl) rfl
  | joined hguard ha hc hp hs hne hban hnone hmax htr hdep => exact h.frame hc rfl (.inl rfl) rfl
  | committed ha hc hp hs hnow hpl hpa => exact h.frame hc hc (.inl rfl) rfl
  | revealed ha hc hp hpl hpa hchoice hnow hopen => exact h.frame hc hc (.inl rfl) rfl
  | roundStarted hc ha hp hs hmin => exact h.frame hc rfl (.inr (by simp)) rfl
  | @roundResolved config _ hguard hc ha hp hs hstart hnow =>
    obtain ⟨bps, eliminated, events, heq⟩ := @settleRound_eq H env w config hw.nodup
    rw [heq]
    refine h.frame hc rfl (.inr ?_) rfl
    dsimp only
    split_ifs
    · simp
    · simp
  | cancelled hguard hc ha hp hs hwd => exact h.frame hc rfl (.inr (by simp)) rfl
  | expired hguard hc hp hs hnow hwd hpay => exact h.frame hc rfl (.inr (by simp)) rfl
  | claimed hguard ha hc hp hs hclaimed hwin hwd htotal htr =>
    intro _
    rfl
  | forceCancelled hguard hc ha hs => exact h.frame hc rfl (.inr (by simp)) rfl
  | forceCancelledAgain hguard hc ha hs => exact h.frame hc hc (.inl rfl) rfl
  | refunded ha hc hs href hpl htr => exact h.frame hc hc (.inl rfl) rfl

theorem settledClaimed_of_run {outside : H} {now : ℕ}
    (hrun : Run (Step env) (World.fresh outside now) tr w) : SettledClaimed w := by
  refine hrun.history (I := fun _ w => SettledClaimed w) ?_ fun _ _ _ _ hr h hs => ?_
  · rintro ⟨config, hc, -⟩
    cases hc
  · cases hs with
    | call _ hexec => exact h.effect (wellFormed_of_run hr) (exec_effect hexec)
    | external _ => exact h
    | tick _ _ => exact h

/-- `Cancelled` and `Settled` hold for the rest of a run. -/
theorem terminal_of_run {tr' : List (World H × Action H)} {state : GameState} (hw : WellFormed w)
    (hterm : ∀ target, canTransition state target = false) (hs : InState w state)
    (hrun : Run (Step env) w tr' w') : InState w' state :=
  (hrun.invariant (I := fun w => WellFormed w ∧ InState w state)
    (fun _ _ _ h hstep => ⟨h.1.step hstep, hstep.terminal h.1 hterm h.2⟩) ⟨hw, hs⟩).2

theorem executeUpgrade_config (h : executeUpgrade env auths w = .ok w') :
    w'.storage.config = w.storage.config := by
  simp only [executeUpgrade, Fallible.bind_eq_ok, Fallible.pure_eq_ok] at h
  obtain ⟨_, -, _, -, _, -, _, -, _, -, rfl⟩ := h
  rfl

end Steps

/-- In every reachable state: every successful call, by anyone and with any
    arguments, opens a new arena, or keeps the state or takes a transition that
    `can_transition` accepts; no run leaves `Cancelled` or `Settled`; a winner is
    stored iff the last `resolve_round` left that player as the only active one,
    and then the state is `Finished` or `Settled`; and the prize is claimed iff
    the state is `Settled`. -/
theorem refines_state_machine {env : Env H} {outside : H} {now : ℕ}
    {tr : List (World H × Action H)} {w : World H}
    (hrun : Run (Step env) (World.fresh outside now) tr w) :
    (∀ auths c w', exec env auths c w = .ok w' →
      (w.storage.config = none → InState w' .Open) ∧
      ∀ config, w.storage.config = some config → ∃ config', w'.storage.config = some config' ∧
        (config'.state = config.state ∨ canTransition config.state config'.state = true)) ∧
    (∀ auths w', executeUpgrade env auths w = .ok w' → w'.storage.config = w.storage.config) ∧
    (∀ state, state = .Cancelled ∨ state = .Settled → InState w state →
      ∀ tr' w', Run (Step env) w tr' w' → InState w' state) ∧
    (∀ p, w.storage.winner = some p ↔
      ∃ u, lastResolved tr w = some u ∧ u.storage.activePlayers = [p]) ∧
    (w.storage.winner ≠ none → InState w .Finished ∨ InState w .Settled) ∧
    (w.storage.isPrizeClaimed = true ↔ InState w .Settled) := by
  obtain ⟨⟨hw, hp⟩, -⟩ := run_of_fresh hrun
  refine ⟨fun auths c w' hexec => ⟨fun hnone => ?_, fun config hc => ?_⟩,
    fun auths w' h => executeUpgrade_config h, fun state hterm hs tr' w' hrun' => ?_,
    winner_iff_of_run hrun, fun hne => ?_, hp.claimed, settledClaimed_of_run hrun⟩
  · exact (exec_effect hexec).opens hnone
  · obtain ⟨config', hc', htrans, -⟩ := (exec_effect hexec).transition hw hc
    exact ⟨config', hc', htrans⟩
  · rcases hterm with rfl | rfl
    · exact terminal_of_run hw cancelled_terminal hs hrun'
    · exact terminal_of_run hw settled_terminal hs hrun'
  · obtain ⟨p, hwin⟩ := Option.ne_none_iff_exists'.mp hne
    exact (hp.winner p hwin).1

/-- In the sample game player 11 is left alone, and so the stored winner. -/
theorem refines_state_machine_game : ∃ tr w u,
    Run (Step (reference false)) (World.fresh VaultState.sample 0) tr w ∧
      lastResolved tr w = some u ∧ u.storage.activePlayers = [⟨11⟩] ∧
      (InState w .Finished ∨ InState w .Settled) := by
  obtain ⟨tr, w, hrun, hwin⟩ : ∃ tr w,
      Run (Step (reference false)) (World.fresh VaultState.sample 0) tr w ∧
        w.storage.winner = some ⟨11⟩ :=
    exists_run (sampleGame 100 ++ [.call [⟨10⟩] .resolveRound, .call [⟨11⟩] (.claim ⟨11⟩)])
      (by decide +kernel)
  obtain ⟨-, -, -, hwinner, hstate, -⟩ := refines_state_machine hrun
  obtain ⟨u, hlast, hactive⟩ := (hwinner _).mp hwin
  exact ⟨tr, w, u, hrun, hlast, hactive, hstate (by rw [hwin]; simp)⟩

end InverseArena.Arena
