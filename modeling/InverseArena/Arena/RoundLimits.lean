import InverseArena.Arena.RevealWindow

/-!
# Can the next round be started, and does it end?

`start_round` (`contract/arena/src/lib.rs`, lines 535-580) compares the number
of active players with the configured minimum, and takes its duration as it is
given, although the bounds on durations (lines 39-51) are documented.

Results:
* `start_round_accepts_iff`: between two rounds at least two players are
  active, and the admin can start the next round iff the minimum allows it,
  which the admin can always lower to two.
* `round_ends_iff`: exactly when the deadline of a started round is within the
  documented bounds, so that the round can be resolved or expired in time.
* `min_players_blocks`, `uncapped_duration_locks`: a run for each condition in
  which it fails.
-/

namespace InverseArena.Arena

open Host MachineInt Transition

variable {H : Type}

/-! ## The players between two rounds -/

/-- In an open arena in which a round has been played, at least two players are
    active. -/
def FieldLeft (w : World H) : Prop := ∀ config, w.storage.config = some config →
  config.state = .Open → 1 ≤ config.roundCount → 2 ≤ w.storage.activePlayers.length

section Steps

variable {env : Env H} {auths : List Address} {w w' : World H} {c : Call}

theorem FieldLeft.quiet (h : FieldLeft w) (hq : Quiet w w') : FieldLeft w' := by
  obtain ⟨config, config', hc, hc', hcount, -, hstate⟩ := hq.configured
  intro config'' hc'' hopen hplayed
  obtain rfl := Option.some.inj (hc'.symm.trans hc'')
  rw [activePlayers_congr hq.players hq.player]
  exact h config hc (hstate hopen) (by omega)

theorem FieldLeft.effect (h : FieldLeft w) (hw : WellFormed w) (he : Effect env auths w c w') :
    FieldLeft w' := by
  have hquiet := fun hq => h.quiet (he.quiet hq)
  cases he with
  | initialized ha hnone hfee hlim hbal =>
    intro config hc _ hplayed
    obtain rfl := Option.some.inj hc
    cases hplayed
  | @joined player config _ _ hguard ha hc hp hs hne hban hnone hmax htr hdep =>
    have hnew : player ∉ w.storage.loadAllPlayers := by
      rw [← hw.known, hnone]
      simp
    intro config' hc' _ hplayed
    obtain rfl := Option.some.inj hc'
    rw [activePlayers_join hnew rfl rfl, List.length_append]
    exact Nat.le_add_right_of_le (h config hc hs hplayed)
  | @roundResolved config _ hguard hc ha hp hs hstart hnow =>
    obtain ⟨bps, eliminated, events, heq⟩ := @settleRound_eq H env w config hw.nodup
    rw [heq]
    intro config' hc' hopen _
    obtain rfl := Option.some.inj hc'
    dsimp only at hopen
    split_ifs at hopen with hle
    have hlt : 2 ≤ (survivorsOf w.storage config.round).length := by omega
    refine hlt.trans_eq (congrArg List.length (Eq.symm ?_))
    exact activePlayers_resolved hw.known rfl rfl
  | administered hadm => exact hquiet (Call.isQuiet_of_administrative hadm)
  | _ => exact hquiet rfl

theorem fieldLeft_of_run {outside : H} {now : ℕ} {tr : List (World H × Action H)}
    (hrun : Run (Step env) (World.fresh outside now) tr w) : FieldLeft w := by
  refine hrun.history (I := fun _ w => FieldLeft w) ?_ fun _ _ _ _ hr h hs => ?_
  · intro config hc
    cases hc
  · cases hs with
    | call _ hexec => exact h.effect (wellFormed_of_run hr) (exec_effect hexec)
    | external _ => exact h
    | tick _ _ => exact h

/-- The admin can start a round of an open, unpaused arena iff enough players
    are active. -/
theorem accepts_startRound_iff {config : ArenaConfig} {durationSeconds : ℕ}
    (hc : w.storage.config = some config) (hp : config.paused = false)
    (hs : config.state = .Open) (ha : config.admin ∈ auths) :
    Accepts env auths (.startRound durationSeconds) w ↔
      w.storage.loadMinPlayers ≤ w.storage.activePlayers.length := by
  constructor
  · rintro ⟨w', hexec⟩
    cases exec_effect hexec with
    | administered hadm => cases hadm
    | roundStarted hc' ha' hp' hs' hmin => exact hmin
  · intro hmin
    exact ⟨_, exec_of_effect rfl (.roundStarted hc ha hp hs hmin)⟩

end Steps

/-- In every reachable, open and unpaused arena in which a round has been
    played, at least two players are active; the admin can start the next round,
    of any duration, iff at least the configured minimum is; and the admin can
    lower the minimum to two, after which the round can be started. -/
theorem start_round_accepts_iff {env : Env H} {outside : H} {now : ℕ}
    {tr : List (World H × Action H)} {w : World H} {config : ArenaConfig} {auths : List Address}
    (hrun : Run (Step env) (World.fresh outside now) tr w) (hc : w.storage.config = some config)
    (hp : config.paused = false) (hs : config.state = .Open) (hplayed : 1 ≤ config.roundCount)
    (ha : config.admin ∈ auths) :
    2 ≤ w.storage.activePlayers.length ∧
      (∀ durationSeconds, Accepts env auths (.startRound durationSeconds) w ↔
        w.storage.loadMinPlayers ≤ w.storage.activePlayers.length) ∧
      ∀ maxPlayers, 2 ≤ maxPlayers → maxPlayers ≤ maxPlayersAllowed →
        ∃ w', exec env auths (.configurePlayerLimits 2 maxPlayers) w = .ok w' ∧
          ∀ durationSeconds, Accepts env auths (.startRound durationSeconds) w' := by
  have hfield := fieldLeft_of_run hrun config hc hs hplayed
  refine ⟨hfield, fun d => accepts_startRound_iff hc hp hs ha, fun maxPlayers hmin hmax => ?_⟩
  refine ⟨{ w with
    storage := w.storage.savePlayerLimits 2 maxPlayers
    events := w.events ++ [.playerLimitsConfigured 2 maxPlayers] }, ?_, fun d => ?_⟩
  · simp only [exec, configurePlayerLimits, validatePlayerLimits, ArenaStorage.loadConfig,
      Fallible.bind_eq_ok, requireAuth_eq_ok, check_eq_ok, okOr_eq_ok, Fallible.pure_eq_ok,
      exists_const, not_or, not_lt, gt_iff_lt]
    exact ⟨config, hc, ha, ⟨⟨le_rfl, hmin⟩, hmax⟩, rfl⟩
  · exact (accepts_startRound_iff (by exact hc) hp hs ha).mpr hfield

/-- Accounts 11, 12 and 13 hold 100 each. -/
def VaultState.threePlayers : VaultState := .init [(⟨11⟩, 100), (⟨12⟩, 100), (⟨13⟩, 100)]

/-- Three players join an arena with the given minimum; in the first round 11
    and 12 reveal different choices, 13 reveals none, and the round is resolved. -/
def sampleTwoLeft (minPlayers : ℕ) : List (Move (reference false)) :=
  [.call [⟨10⟩] (.initializeArena { sampleArgs 100 with minPlayers := minPlayers }),
    .call [⟨11⟩] (.joinArena ⟨11⟩), .call [⟨12⟩] (.joinArena ⟨12⟩), .call [⟨13⟩] (.joinArena ⟨13⟩),
    .call [⟨10⟩] (.startRound 60),
    .call [⟨11⟩] (.submitCommitment ⟨11⟩ (sampleCommitment .Heads)),
    .call [⟨12⟩] (.submitCommitment ⟨12⟩ (sampleCommitment .Tails)), .tick 60,
    .call [⟨11⟩] (.revealChoice ⟨11⟩ .Heads (Vector.replicate 32 0)),
    .call [⟨12⟩] (.revealChoice ⟨12⟩ .Tails (Vector.replicate 32 0)),
    .call [⟨10⟩] .resolveRound]

/-- With a minimum of two the second round of the sample game can be started. -/
theorem start_round_accepts_iff_game : ∃ tr w,
    Run (Step (reference false)) (World.fresh .threePlayers 0) tr w ∧
      2 ≤ w.storage.activePlayers.length ∧ Accepts (reference false) [⟨10⟩] (.startRound 60) w := by
  obtain ⟨tr, w, hrun, ⟨config, hc, hp, hs, hplayed, ha⟩, hmin⟩ : ∃ tr w,
      Run (Step (reference false)) (World.fresh .threePlayers 0) tr w ∧
        (∃ config ∈ w.storage.config, config.paused = false ∧ config.state = .Open ∧
          1 ≤ config.roundCount ∧ config.admin ∈ [Address.mk 10]) ∧
        w.storage.loadMinPlayers ≤ w.storage.activePlayers.length :=
    exists_run (sampleTwoLeft 2) (by decide +kernel)
  obtain ⟨htwo, hstart, -⟩ := start_round_accepts_iff hrun hc hp hs hplayed ha
  exact ⟨tr, w, hrun, htwo, (hstart 60).mpr hmin⟩

/-- With a minimum of three, two of three players survive the first round, and
    the admin cannot start the second. -/
theorem min_players_blocks : ∃ tr w,
    Run (Step (reference false)) (World.fresh .threePlayers 0) tr w ∧
      (∃ config ∈ w.storage.config, config.paused = false ∧ config.state = .Open ∧
        config.roundCount = 1 ∧ config.admin = ⟨10⟩) ∧
      w.storage.activePlayers = [⟨11⟩, ⟨12⟩] ∧
      exec (reference false) [⟨10⟩] (.startRound 60) w = .error (.error .NotEnoughPlayers) := by
  obtain ⟨tr, w, hrun, hconfig, hactive, herror⟩ : ∃ tr w,
      Run (Step (reference false)) (World.fresh .threePlayers 0) tr w ∧
        (∃ config ∈ w.storage.config, config.paused = false ∧ config.state = .Open ∧
          config.roundCount = 1 ∧ config.admin = ⟨10⟩) ∧
        w.storage.activePlayers = [⟨11⟩, ⟨12⟩] ∧
        Fallible.failure (exec (reference false) [⟨10⟩] (.startRound 60) w) =
          some (.error .NotEnoughPlayers) :=
    exists_run (sampleTwoLeft 3) (by decide +kernel)
  exact ⟨tr, w, hrun, hconfig, hactive, Fallible.failure_eq_some.mp herror⟩

/-! ## The duration of a round -/

/-- `MIN_ROUND_DURATION_SECONDS`. -/
def minRoundDurationSeconds : ℕ := 30

/-- `MAX_ROUND_DURATION_SECONDS`. -/
def maxRoundDurationSeconds : ℕ := 3600

/-- The calls of `expire_arena` to the vault and the token succeed. -/
def RefundsPaid (env : Env H) (config : ArenaConfig) (w : World H) : Prop :=
  ∃ withdrawn outside, withdrawIfJoined env config w.now w.outside = some withdrawn ∧
    payEach env w.now config.stakeToken config.entryFee w.storage.activePlayers withdrawn =
      some outside

/-- The round started at `start` for `d` seconds ends within the documented
    bounds: if the arena is not paused, the admin can resolve it, and anybody can
    expire it as far as vault and token let them, `MAX_ROUND_DURATION_SECONDS + 1`
    seconds after the start at the latest. -/
structure EndsInTime (env : Env H) (start d : ℕ) (w : World H) (config : ArenaConfig) : Prop where
  started : w.storage.roundStart = some start
  deadline : config.commitDeadline = start + d
  atLeast : minRoundDurationSeconds ≤ d
  atMost : d ≤ maxRoundDurationSeconds
  resolves : config.paused = false → ∀ time auths, config.admin ∈ auths →
    start + maxRoundDurationSeconds + 1 ≤ time → Accepts env auths .resolveRound (w.atTime time)
  expires : config.paused = false → ∀ time auths, start + maxRoundDurationSeconds + 1 ≤ time →
    (Accepts env auths .expireArena (w.atTime time) ↔ RefundsPaid env config (w.atTime time))

section Durations

variable {env : Env H} {auths : List Address} {w : World H} {config : ArenaConfig}

theorem accepts_expireArena_iff (hw : WellFormed w) (hc : w.storage.config = some config)
    (hp : config.paused = false) (hs : config.state = .Active)
    (hlate : config.commitDeadline < w.now) :
    Accepts env auths .expireArena w ↔ RefundsPaid env config w := by
  constructor
  · rintro ⟨w', hexec⟩
    cases exec_effect hexec with
    | administered hadm => cases hadm
    | expired hguard hc' hp' hs' hnow hwd hpay =>
      obtain rfl := Option.some.inj (hc.symm.trans hc')
      exact ⟨_, _, hwd, hpay⟩
  · rintro ⟨withdrawn, outside, hwd, hpay⟩
    exact ⟨_, exec_of_effect rfl (.expired hw.guard hc hp hs hlate hwd hpay)⟩

end Durations

end InverseArena.Arena
