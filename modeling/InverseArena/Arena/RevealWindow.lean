import InverseArena.Arena.CommitReveal

/-!
# The reveal window

When the calls of a round are accepted: `submit_commitment` before
`commit_deadline`, `reveal_choice` and `resolve_round` from it on,
`expire_arena` after it (`contract/arena/src/lib.rs`, lines 324-399, 453-458
and 606-615). `reveal_choice` does not look at the state of the arena.

Results:
* `resolve_of_reveal`: in an active arena the admin may resolve the round
  whenever a player may reveal.
* `NothingStored.step`: after `resolve_round` no commitment is stored until the
  next `start_round`.
* `reveal_window`: the windows of the calls of a round.
* `no_reveal_before_resolve`: in a started round with a commitment there is no
  time for the reveal before the round may be resolved.
-/

namespace InverseArena.Arena

open MachineInt Transition

variable {H : Type}

/-- A call of `resolve_round`. -/
def Action.isResolve : Action H → Bool
  | .call _ .resolveRound => true
  | _ => false

/-- The world `w` at ledger time `time`. -/
def World.atTime (w : World H) (time : ℕ) : World H := { w with now := time }

/-- The call succeeds. -/
def Accepts (env : Env H) (auths : List Address) (c : Call) (w : World H) : Prop :=
  ∃ w', exec env auths c w = .ok w'

section Windows

variable {env : Env H} {auths : List Address} {w : World H} {config : ArenaConfig}

theorem submit_before_deadline {player : Address} {commitment : BytesN 32}
    (hc : w.storage.config = some config)
    (h : Accepts env auths (.submitCommitment player commitment) w) :
    w.now < config.commitDeadline := by
  obtain ⟨w', hexec⟩ := h
  cases exec_effect hexec with
  | administered hadm => cases hadm
  | committed ha hc' hp hs hnow hpl hpa =>
    obtain rfl := Option.some.inj (hc.symm.trans hc')
    exact hnow

theorem reveal_after_deadline {player : Address} {choice : Choice} {salt : BytesN 32}
    (hc : w.storage.config = some config)
    (h : Accepts env auths (.revealChoice player choice salt) w) :
    config.commitDeadline ≤ w.now ∧ config.paused = false ∧
      w.storage.commitment (player, config.round) = some (computeCommitment env choice salt) := by
  obtain ⟨w', hexec⟩ := h
  cases exec_effect hexec with
  | administered hadm => cases hadm
  | revealed ha hc' hp hpl hpa hchoice hnow hopen =>
    obtain rfl := Option.some.inj (hc.symm.trans hc')
    exact ⟨hnow, hp, hopen⟩

theorem resolve_after_grace {roundStart : ℕ} (hround : w.storage.roundStart = some roundStart)
    (h : Accepts env auths .resolveRound w) :
    satAddU64 roundStart w.storage.loadRoundDuration ≤ w.now := by
  obtain ⟨w', hexec⟩ := h
  cases exec_effect hexec with
  | administered hadm => cases hadm
  | roundResolved hguard hc ha hp hs hround' hnow =>
    obtain rfl := Option.some.inj (hround.symm.trans hround')
    exact hnow

theorem expire_after_deadline (hc : w.storage.config = some config)
    (h : Accepts env auths .expireArena w) : config.commitDeadline < w.now := by
  obtain ⟨w', hexec⟩ := h
  cases exec_effect hexec with
  | administered hadm => cases hadm
  | expired hguard hc' hp hs hnow hwd hpay =>
    obtain rfl := Option.some.inj (hc.symm.trans hc')
    exact hnow

/-- An active player with an unrevealed commitment can reveal at the deadline. -/
theorem reveal_at_deadline {player : Address} {choice : Choice} {salt : BytesN 32}
    (hc : w.storage.config = some config) (hp : config.paused = false)
    (hplayer : w.storage.isActive player = true)
    (hchoice : w.storage.choice (player, config.round) = none)
    (hopen : w.storage.commitment (player, config.round) =
      some (computeCommitment env choice salt)) (hnow : config.commitDeadline ≤ w.now) :
    Accepts env [player] (.revealChoice player choice salt) w := by
  obtain ⟨state, hs, hsa⟩ : ∃ state, w.storage.player player = some state ∧
      state.active = true := by
    unfold ArenaStorage.isActive ArenaStorage.loadPlayer at hplayer
    cases hst : w.storage.player player with
    | none => rw [hst] at hplayer; cases hplayer
    | some state => rw [hst] at hplayer; exact ⟨state, rfl, hplayer⟩
  exact ⟨_, exec_of_effect rfl
    (.revealed (List.mem_singleton.mpr rfl) hc hp hs hsa hchoice hnow hopen)⟩

/-- In an active arena the admin may resolve the round whenever a player may
    reveal. -/
theorem resolve_of_reveal {tr : List (World H × Action H)} (hw : WellFormed w)
    (hclock : RoundClock tr w) (hc : w.storage.config = some config)
    (hs : config.state = .Active) {time : ℕ} {player : Address} {choice : Choice}
    {salt : BytesN 32}
    (h : Accepts env auths (.revealChoice player choice salt) (w.atTime time)) :
    Accepts env [config.admin] .resolveRound (w.atTime time) := by
  have hc' : (w.atTime time).storage.config = some config := hc
  obtain ⟨hdl, hp, -⟩ := reveal_after_deadline hc' h
  cases hlast : lastStart tr with
  | none => exact absurd ⟨config, hc, hs⟩ (hclock.idle hlast)
  | some e =>
    obtain ⟨t₀, d⟩ := e
    obtain ⟨-, hround, -, config', -, hc₁, -, hset, -⟩ := hclock.running t₀ d hlast
    obtain rfl := Option.some.inj (hc.symm.trans hc₁)
    have hgrace : satAddU64 t₀.now (w.atTime time).storage.loadRoundDuration ≤ time := by
      have hd : (w.atTime time).storage.loadRoundDuration = d := hclock.loadRoundDuration hlast
      rw [hd, ← hset]
      exact hdl
    exact ⟨_, exec_of_effect rfl
      (.roundResolved hw.guard hc' (List.mem_singleton.mpr rfl) hp hs hround hgrace)⟩

end Windows

/-! ## After a round is resolved -/

/-- No commitment is stored, and none can be made. -/
def NothingStored (w : World H) : Prop :=
  (∀ k, w.storage.commitment k = none) ∧ ¬ InState w .Active

section Steps

variable {env : Env H} {tr : List (World H × Action H)} {w w' : World H} {a : Action H}

theorem NothingStored.step (h : NothingStored w) (hw : WellFormed w) (hs : Step env w a w')
    (ha : a.started = none) : NothingStored w' := by
  refine ⟨fun k => ?_, fun hact => h.2 (hs.active_of_active hw ha hact)⟩
  have hk := h.1 k
  cases hs with
  | call _ hexec =>
    cases exec_effect hexec with
    | committed hauth hc hp hactive hnow hpl hpa => exact absurd ⟨_, hc, hactive⟩ h.2
    | roundStarted => cases ha
    | roundResolved hguard hc hauth hp hactive hstart hnow => exact absurd ⟨_, hc, hactive⟩ h.2
    | _ => exact hk
  | external _ => exact hk
  | tick _ _ => exact hk

/-- `resolve_round` clears the round and leaves `Active`. -/
theorem Step.nothingStored (h : RoundInv env tr w) (hw : WellFormed w) (hs : Step env w a w')
    (ha : a.isResolve = true) : NothingStored w' := by
  unfold Action.isResolve at ha
  split at ha
  · cases hs with
    | call _ hexec =>
      cases exec_effect hexec with
      | administered hadm => cases hadm
      | @roundResolved config _ hguard hc hauth hp hactive hstart hnow =>
        obtain ⟨bps, eliminated, events, heq⟩ := @settleRound_eq H env w config hw.nodup
        rw [heq]
        refine ⟨fun k => (h.cleared hc k).1, ?_⟩
        rintro ⟨config', hc', hs'⟩
        cases hc'
        dsimp only at hs'
        split_ifs at hs'
  · cases ha

theorem nothingStored_of_run {outside : H} {now : ℕ}
    (hrun : Run (Step env) (World.fresh outside now) tr w)
    (hres : ∃ e ∈ sinceStart tr, e.2.isResolve = true) : NothingStored w := by
  refine hrun.history (I := fun tr w => (∃ e ∈ sinceStart tr, e.2.isResolve = true) →
    NothingStored w) ?_ (fun tr t a u hr ih hs hmem => ?_) hres
  · rintro ⟨e, he, -⟩
    cases he
  · have hw := wellFormed_of_run hr
    cases ha : a.started with
    | some d =>
      rw [sinceStart_cons_of_start ha] at hmem
      obtain ⟨e, he, -⟩ := hmem
      cases he
    | none =>
      rw [sinceStart_cons ha] at hmem
      obtain ⟨e, he, hres⟩ := hmem
      rcases List.mem_cons.mp he with rfl | he
      · exact hs.nothingStored (roundInv_of_run hr) hw hres
      · exact (ih ⟨e, he, hres⟩).step hw hs ha

end Steps

/-! ## The windows of a round -/

/-- For every round, started at `t₀` with duration `d`, in every state until
    the next `start_round`: commitments are accepted strictly before
    `satAddU64 t₀.now d`, reveals and `resolve_round` only from then on. At
    that time itself a player with an unrevealed commitment can reveal, and
    `expire_arena` is rejected; but whenever a reveal is accepted in the active
    arena, so is the admin's `resolve_round`. After `resolve_round` no reveal
    is accepted. -/
theorem reveal_window {env : Env H} {outside : H} {now d : ℕ} {tr : List (World H × Action H)}
    {w t₀ : World H} (hrun : Run (Step env) (World.fresh outside now) tr w)
    (hlast : lastStart tr = some (t₀, d)) :
    (∀ time auths, (∀ p commitment,
        Accepts env auths (.submitCommitment p commitment) (w.atTime time) →
          time < satAddU64 t₀.now d) ∧
      (∀ p choice salt, Accepts env auths (.revealChoice p choice salt) (w.atTime time) →
        satAddU64 t₀.now d ≤ time) ∧
      (Accepts env auths .resolveRound (w.atTime time) → satAddU64 t₀.now d ≤ time)) ∧
    (∀ config p choice salt, w.storage.config = some config → config.state = .Active →
      (config.paused = false → w.storage.isActive p = true →
        w.storage.choice (p, config.round) = none →
        w.storage.commitment (p, config.round) = some (computeCommitment env choice salt) →
        Accepts env [p] (.revealChoice p choice salt) (w.atTime (satAddU64 t₀.now d)) ∧
          ∀ auths, ¬ Accepts env auths .expireArena (w.atTime (satAddU64 t₀.now d))) ∧
      ∀ time auths, Accepts env auths (.revealChoice p choice salt) (w.atTime time) →
        Accepts env [config.admin] .resolveRound (w.atTime time)) ∧
    ((∃ e ∈ sinceStart tr, e.2.isResolve = true) → ∀ time auths p choice salt,
      ¬ Accepts env auths (.revealChoice p choice salt) (w.atTime time)) := by
  have hw := wellFormed_of_run hrun
  have hclock := roundClock_of_run hrun
  obtain ⟨-, hround, -, config, -, hc, -, hset, -⟩ := hclock.running t₀ d hlast
  refine ⟨fun time auths => ⟨fun p commitment h => ?_, fun p choice salt h => ?_, fun h => ?_⟩,
    fun config' p choice salt hc' hs => ⟨fun hp hplayer hchoice hopen => ⟨?_, fun auths h => ?_⟩,
      fun time auths h => resolve_of_reveal hw hclock hc' hs h⟩,
    fun hres time auths p choice salt h => ?_⟩
  · rw [← hset]
    exact submit_before_deadline (w := w.atTime time) hc h
  · rw [← hset]
    exact (reveal_after_deadline (w := w.atTime time) hc h).1
  · have hgrace := resolve_after_grace (w := w.atTime time) hround h
    have hd : (w.atTime time).storage.loadRoundDuration = d := hclock.loadRoundDuration hlast
    rw [hd] at hgrace
    exact hgrace
  · obtain rfl := Option.some.inj (hc.symm.trans hc')
    exact reveal_at_deadline (w := w.atTime (satAddU64 t₀.now d)) hc' hp hplayer hchoice hopen
      hset.le
  · obtain rfl := Option.some.inj (hc.symm.trans hc')
    have hlate := expire_after_deadline (w := w.atTime (satAddU64 t₀.now d)) hc' h
    rw [hset] at hlate
    exact lt_irrefl _ hlate
  · have hnone := (nothingStored_of_run hrun hres).1 (p, config.round)
    have hopen := (reveal_after_deadline (w := w.atTime time) hc h).2.2
    rw [show (w.atTime time).storage.commitment = w.storage.commitment from rfl, hnone] at hopen
    cases hopen

/-- Player 11 has committed in a round of 60 seconds. -/
def sampleCommitted : List (Move (reference false)) := sampleJoins 100 ++
  [.call [⟨10⟩] (.startRound 60), .call [⟨11⟩] (.submitCommitment ⟨11⟩ (sampleCommitment .Heads))]

/-- In the sample round player 11 can reveal at time 60, and not before. -/
theorem reveal_window_game : ∃ tr w,
    Run (Step (reference false)) (World.fresh VaultState.sample 0) tr w ∧
      Accepts (reference false) [⟨11⟩] (.revealChoice ⟨11⟩ .Heads (Vector.replicate 32 0))
        (w.atTime 60) ∧
      ∀ time < 60, ¬ Accepts (reference false) [⟨11⟩]
        (.revealChoice ⟨11⟩ .Heads (Vector.replicate 32 0)) (w.atTime time) := by
  obtain ⟨tr, w, hrun, hstart, config, hc, hs, hp, hplayer, hchoice, hopen⟩ : ∃ tr w,
      Run (Step (reference false)) (World.fresh VaultState.sample 0) tr w ∧
        (lastStart tr).map (fun e => (e.1.now, e.2)) = some (0, 60) ∧
        ∃ config ∈ w.storage.config, config.state = .Active ∧ config.paused = false ∧
          w.storage.isActive ⟨11⟩ = true ∧ w.storage.choice (⟨11⟩, config.round) = none ∧
          w.storage.commitment (⟨11⟩, config.round) = some (computeCommitment (reference false)
            .Heads (Vector.replicate 32 0)) :=
    exists_run sampleCommitted (by decide +kernel)
  obtain ⟨⟨t₀, d⟩, hlast, heq⟩ := Option.map_eq_some_iff.mp hstart
  obtain ⟨hnow, rfl⟩ := Prod.mk.inj heq
  replace hnow : t₀.now = 0 := hnow
  have hwindow := reveal_window hrun hlast
  rw [hnow] at hwindow
  obtain ⟨hwhen, hopens, -⟩ := hwindow
  refine ⟨tr, w, hrun, ?_, fun time hlt h => ?_⟩
  · exact ((hopens config _ _ _ hc hs).1 hp hplayer hchoice hopen).1
  · have hle := (hwhen time _).2.1 _ _ _ h
    have hset : satAddU64 0 60 = 60 := by decide
    omega

/-- In the sample round there is no time at which a reveal is accepted and
    `resolve_round` is not; and after an expiry, outside `Active`, a reveal is
    accepted. -/
theorem no_reveal_before_resolve :
    (∃ tr w t₀,
      Run (Step (reference false)) (World.fresh VaultState.sample 0) tr w ∧
        lastStart tr = some (t₀, 60) ∧ InState w .Active ∧ w.storage.isActive ⟨11⟩ = true ∧
        w.storage.commitment (⟨11⟩, 1) = some (sampleCommitment .Heads) ∧
        ¬ ∃ time, (∃ auths p choice salt,
            Accepts (reference false) auths (.revealChoice p choice salt) (w.atTime time)) ∧
          ∀ auths, ¬ Accepts (reference false) auths .resolveRound (w.atTime time)) ∧
    ∃ tr w,
      Run (Step (reference false)) (World.fresh VaultState.sample 0) tr w ∧
        InState w .Finished ∧ Accepts (reference false) [⟨11⟩]
          (.revealChoice ⟨11⟩ .Heads (Vector.replicate 32 0)) w := by
  constructor
  · obtain ⟨tr, w, hrun, hstart, ⟨config, hc, hs⟩, hplayer, hcom⟩ : ∃ tr w,
        Run (Step (reference false)) (World.fresh VaultState.sample 0) tr w ∧
          (lastStart tr).map (fun e => e.2) = some 60 ∧ InState w .Active ∧
          w.storage.isActive ⟨11⟩ = true ∧
          w.storage.commitment (⟨11⟩, 1) = some (sampleCommitment .Heads) :=
      exists_run sampleCommitted (by decide +kernel)
    obtain ⟨⟨t₀, d⟩, hlast, heq⟩ := Option.map_eq_some_iff.mp hstart
    obtain rfl : d = 60 := heq
    refine ⟨tr, w, t₀, hrun, hlast, ⟨config, hc, hs⟩, hplayer, hcom, ?_⟩
    rintro ⟨time, ⟨auths, p, choice, salt, hreveal⟩, hno⟩
    exact hno [config.admin]
      (resolve_of_reveal (wellFormed_of_run hrun) (roundClock_of_run hrun) hc hs hreveal)
  · obtain ⟨tr, w, w', hrun, hstep, hfin⟩ : ∃ tr w w',
        Run (Step (reference false)) (World.fresh VaultState.sample 0) tr w ∧
          Step (reference false) w (.call [⟨11⟩]
            (.revealChoice ⟨11⟩ .Heads (Vector.replicate 32 0))) w' ∧ InState w .Finished :=
      exists_run_call (sampleCommitted ++ [.tick 61, .call [⟨12⟩] .expireArena]) [⟨11⟩]
        (.revealChoice ⟨11⟩ .Heads (Vector.replicate 32 0)) (by decide +kernel)
    cases hstep with
    | call _ hexec => exact ⟨tr, w, hrun, hfin, w', hexec⟩

end InverseArena.Arena
