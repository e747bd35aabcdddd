import InverseArena.Arena.Payouts
import InverseArena.Arena.RoundClock

/-!
# Is the field fair?

Between two rounds the arena is `Open`, the state in which `join_arena`
(`contract/arena/src/lib.rs`, lines 260-309) admits players; what it checks
does not include `round_count`. Where nobody joins after the first round, all
active players have played every round.

Results:
* `RoundsPlayed.effect`: under `FairStep`, active players have survived as many
  rounds as were resolved and eliminated players fewer.
* `ClosedField.step`: under `FairStep`, nobody joins after a `start_round`.
* `fair_field`: so the winner heads the leaderboard.
* `late_join_unfair`, `latecomer_active`: a later join is accepted, and breaks
  this.
-/

namespace InverseArena.Arena

open MachineInt Transition

variable {H : Type}

/-- Nobody joins once a round was resolved, and the round counter does not
    saturate. -/
def FairStep (w : World H) : Action H → Prop
  | .call _ (.joinArena _) => ∀ config ∈ w.storage.config, config.roundCount = 0
  | .call _ .resolveRound => ∀ config ∈ w.storage.config, config.roundCount < u32Max
  | _ => True

instance (w : World H) (a : Action H) : Decidable (FairStep w a) := by
  unfold FairStep
  split <;> infer_instance

/-- Active players have survived every round, eliminated players not. -/
def RoundsPlayed (w : World H) : Prop :=
  ∀ config p state, w.storage.config = some config → w.storage.player p = some state →
    (state.active = true → state.roundsSurvived = config.roundCount) ∧
    (state.active = false → state.roundsSurvived < config.roundCount)

/-- Whoever plays was there at every `start_round`. -/
def ClosedField (tr : List (World H × Action H)) (w : World H) : Prop :=
  ∀ t a d, (t, a) ∈ tr → a.started = some d →
    w.storage.loadAllPlayers = t.storage.loadAllPlayers ∧
    ∃ config, w.storage.config = some config ∧ (config.state = .Open → 0 < config.roundCount)

section Steps

variable {env : Env H} {auths : List Address} {w w' : World H} {c : Call}

theorem RoundsPlayed.quiet (h : RoundsPlayed w) (hq : Quiet w w') : RoundsPlayed w' := by
  obtain ⟨config, config', hc, hc', hcount, -⟩ := hq.configured
  intro config'' p state hc'' hp
  obtain rfl := Option.some.inj (hc'.symm.trans hc'')
  rw [hq.player] at hp
  rw [hcount]
  exact h config p state hc hp

/-- Whoever stays has survived one round more, and only they. -/
theorem RoundsPlayed.resolved (h : RoundsPlayed w) (hw : WellFormed w) {config : ArenaConfig}
    (hc : w.storage.config = some config) (hlt : config.roundCount < u32Max) {p : Address}
    {state : PlayerState} (hp : playersAfter w.storage config.round p = some state) :
    (state.active = true → state.roundsSurvived = config.round) ∧
      (state.active = false → state.roundsSurvived < config.round) := by
  have hround : config.round = config.roundCount + 1 := satAddU32_of_lt hlt
  unfold playersAfter at hp
  split_ifs at hp with hact
  · obtain rfl := Option.some.inj hp
    obtain ⟨before, hbefore⟩ := Option.isSome_iff_exists.mp ((hw.known p).mpr hact.1)
    have hstate : w.storage.playerState p = before := by
      unfold ArenaStorage.playerState ArenaStorage.loadPlayer
      rw [hbefore]
      rfl
    rw [hstate] at hact
    have hrounds := (h config p before hc hbefore).1 hact.2
    cases hst : stays (roundTally w.storage config.round) config.round w.storage p with
    | true =>
      rw [outcome_of_stays hst, hstate]
      refine ⟨fun _ => ?_, fun hfalse => ?_⟩
      · dsimp only
        rw [hrounds]
        rfl
      · dsimp only at hfalse
        rw [hact.2] at hfalse
        cases hfalse
    | false =>
      rw [outcome_of_not_stays hst, hstate]
      refine ⟨fun htrue => (by cases htrue), fun _ => ?_⟩
      dsimp only
      omega
  · obtain ⟨hactive, hout⟩ := h config p state hc hp
    have hmem : p ∈ w.storage.loadAllPlayers := (hw.known p).mp (by rw [hp]; rfl)
    have hstate : w.storage.playerState p = state := by
      unfold ArenaStorage.playerState ArenaStorage.loadPlayer
      rw [hp]
      rfl
    refine ⟨fun htrue => absurd ⟨hmem, by rw [hstate]; exact htrue⟩ hact, fun hfalse => ?_⟩
    have hlow := hout hfalse
    omega

theorem RoundsPlayed.effect (h : RoundsPlayed w) (hw : WellFormed w)
    (hfair : FairStep w (.call auths c)) (he : Effect env auths w c w') : RoundsPlayed w' := by
  have hquiet := fun hq => h.quiet (he.quiet hq)
  cases he with
  | initialized ha hnone hfee hlim hbal =>
    intro config p state _ hp
    replace hp : w.storage.player p = some state := hp
    rw [hw.blank hnone] at hp
    cases hp
  | @joined player config _ _ hguard ha hc hp hs hne hban hnone hmax htr hdep =>
    intro config' p state hc' hstate
    obtain rfl := Option.some.inj hc'
    replace hstate : Function.update w.storage.player player (some ⟨true, 0⟩) p = some state :=
      hstate
    by_cases hpp : p = player
    · subst hpp
      rw [Function.update_self] at hstate
      cases hstate
      exact ⟨fun _ => (hfair config hc).symm, fun hfalse => by cases hfalse⟩
    · rw [Function.update_of_ne hpp] at hstate
      exact h config p state hc hstate
  | @roundResolved config _ hguard hc ha hp hs hstart hnow =>
    obtain ⟨bps, eliminated, events, heq⟩ := @settleRound_eq H env w config hw.nodup
    rw [heq]
    intro config' p state hc' hstate
    cases hc'
    exact h.resolved hw hc (hfair config hc) hstate
  | administered hadm => exact hquiet (Call.isQuiet_of_administrative hadm)
  | _ => exact hquiet rfl

/-- Players are only added by `join_arena`, in an open arena. An open arena was
    open before with the same round count, unless it has resolved a round. -/
theorem Effect.players (he : Effect env auths w c w') (hw : WellFormed w) {config : ArenaConfig}
    (hc : w.storage.config = some config) :
    (w'.storage.loadAllPlayers = w.storage.loadAllPlayers ∨
      (∃ p, c = .joinArena p) ∧ config.state = .Open) ∧
    ∃ config', w'.storage.config = some config' ∧ (config'.state = .Open →
      0 < config'.roundCount ∨ config.state = .Open ∧
        config'.roundCount = config.roundCount) := by
  cases he with
  | initialized ha hnone hfee hlim hbal => rw [hnone] at hc; cases hc
  | administered hadm hc₁ hc' hlim =>
    obtain rfl := Option.some.inj (hc.symm.trans hc₁)
    exact ⟨.inl rfl, _, hc', fun hs => .inr ⟨hs, rfl⟩⟩
  | joined hguard ha hc₁ hp hs hne hban hnone hmax htr hdep =>
    obtain rfl := Option.some.inj (hc.symm.trans hc₁)
    exact ⟨.inr ⟨⟨_, rfl⟩, hs⟩, _, rfl, fun hs => .inr ⟨hs, rfl⟩⟩
  | committed ha hc₁ hp hs hnow hpl hpa =>
    exact ⟨.inl rfl, config, hc, fun hs => .inr ⟨hs, rfl⟩⟩
  | revealed ha hc₁ hp hpl hpa hchoice hnow hopen =>
    exact ⟨.inl rfl, config, hc, fun hs => .inr ⟨hs, rfl⟩⟩
  | roundStarted hc₁ ha hp hs hmin => exact ⟨.inl rfl, _, rfl, nofun⟩
  | @roundResolved config _ hguard hc₁ ha hp hs hstart hnow =>
    obtain ⟨bps, eliminated, events, heq⟩ := @settleRound_eq H env w config hw.nodup
    rw [heq]
    refine ⟨.inl rfl, _, rfl, fun _ => .inl ?_⟩
    show 0 < satAddU32 config.roundCount 1
    unfold satAddU32 u32Max
    omega
  | cancelled hguard hc₁ ha hp hs hwd => exact ⟨.inl rfl, _, rfl, nofun⟩
  | expired hguard hc₁ hp hs hnow hwd hpay => exact ⟨.inl rfl, _, rfl, nofun⟩
  | claimed hguard ha hc₁ hp hs hclaimed hwin hwd htotal htr => exact ⟨.inl rfl, _, rfl, nofun⟩
  | forceCancelled hguard hc₁ ha hs => exact ⟨.inl rfl, _, rfl, nofun⟩
  | forceCancelledAgain hguard hc₁ ha hs =>
    exact ⟨.inl rfl, config, hc, fun hs => .inr ⟨hs, rfl⟩⟩
  | refunded ha hc₁ hs href hpl htr =>
    exact ⟨.inl rfl, config, hc, fun hs => .inr ⟨hs, rfl⟩⟩

theorem ClosedField.effect {tr : List (World H × Action H)} (h : ClosedField tr w)
    (hw : WellFormed w) (hfair : FairStep w (.call auths c)) (he : Effect env auths w c w') :
    ClosedField ((w, .call auths c) :: tr) w' := by
  intro t a d hmem ha
  rcases List.mem_cons.mp hmem with heq | hmem
  · -- the round starts with this call
    obtain ⟨rfl, rfl⟩ := Prod.mk.inj heq
    cases he with
    | roundStarted hc hauth hp hs hmin => exact ⟨rfl, _, rfl, nofun⟩
    | administered hadm => cases c with
      | startRound d' => cases hadm
      | _ => cases ha
    | _ => cases ha
  · obtain ⟨hsame, config, hc, hopen⟩ := h t a d hmem ha
    obtain ⟨hplayers, config', hc', hopen'⟩ := he.players hw hc
    refine ⟨?_, config', hc', fun hs' => ?_⟩
    · rcases hplayers with hplayers | ⟨⟨p, rfl⟩, hs⟩
      · exact hplayers.trans hsame
      · have hpos := hopen hs
        have hzero : config.roundCount = 0 := hfair config hc
        omega
    · rcases hopen' hs' with hpos | ⟨hs, hcount⟩
      · exact hpos
      · rw [hcount]
        exact hopen hs

/-- A step that leaves the storage alone. -/
theorem ClosedField.same {tr : List (World H × Action H)} {a : Action H} (h : ClosedField tr w)
    (ha : a.started = none) (heq : w'.storage = w.storage) : ClosedField ((w, a) :: tr) w' := by
  intro t a' d hmem ha'
  rw [heq]
  rcases List.mem_cons.mp hmem with he | hmem
  · obtain ⟨rfl, rfl⟩ := Prod.mk.inj he
    rw [ha] at ha'
    cases ha'
  · exact h t a' d hmem ha'

theorem RoundsPlayed.step {a : Action H} (h : RoundsPlayed w) (hw : WellFormed w)
    (hfair : FairStep w a) (hs : Step env w a w') : RoundsPlayed w' := by
  cases hs with
  | call _ hexec => exact h.effect hw hfair (exec_effect hexec)
  | external _ => exact h
  | tick _ _ => exact h

theorem ClosedField.step {tr : List (World H × Action H)} {a : Action H} (h : ClosedField tr w)
    (hw : WellFormed w) (hfair : FairStep w a) (hs : Step env w a w') :
    ClosedField ((w, a) :: tr) w' := by
  cases hs with
  | call _ hexec => exact h.effect hw hfair (exec_effect hexec)
  | external _ => exact h.same rfl rfl
  | tick _ _ => exact h.same rfl rfl

/-- Exactly the active players have survived every round. -/
theorem RoundsPlayed.playerState (h : RoundsPlayed w) (hw : WellFormed w) {config : ArenaConfig}
    (hc : w.storage.config = some config) {p : Address} (hp : p ∈ w.storage.loadAllPlayers) :
    (w.storage.playerState p).roundsSurvived ≤ config.roundCount ∧
      (w.storage.isActive p = true ↔
        (w.storage.playerState p).roundsSurvived = config.roundCount) := by
  obtain ⟨state, hstate⟩ := Option.isSome_iff_exists.mp ((hw.known p).mpr hp)
  have heq : w.storage.playerState p = state := by
    unfold ArenaStorage.playerState ArenaStorage.loadPlayer
    rw [hstate]
    rfl
  obtain ⟨hactive, hout⟩ := h config p state hc hstate
  rw [ArenaStorage.isActive_eq, heq]
  cases hact : state.active with
  | true =>
    have hrounds := hactive hact
    exact ⟨hrounds.le, by simp [hrounds]⟩
  | false =>
    have hlow := hout hact
    exact ⟨hlow.le, by simp; omega⟩

/-- When the game finishes with a winner, the winner heads the leaderboard. -/
theorem Step.winner_heads (h : RoundsPlayed w') (hw : WellFormed w) (hw' : WellFormed w')
    (hpay : Payouts w') (hs : Step env w (.call auths .resolveRound) w')
    (hfin : InState w' .Finished) {p : Address} (hwin : w'.storage.winner = some p)
    (hlim : 1 ≤ w.storage.loadLeaderboardLimit) :
    ∃ config, w'.storage.config = some config ∧
      w'.storage.loadLeaderboard.head? = some ⟨p, config.roundCount⟩ := by
  obtain ⟨config', hc', -⟩ := id hfin
  have hplays := hpay.winner_mem hw' hwin
  have hboard : w'.storage.leaderboard = (buildLeaderboard w'.storage).leaderboard ∧
      w'.storage.loadLeaderboardLimit = w.storage.loadLeaderboardLimit := by
    cases hs with
    | call _ hexec =>
      cases exec_effect hexec with
      | administered hadm => cases hadm
      | @roundResolved config _ hguard hc ha hp hs hstart hnow =>
        obtain ⟨bps, eliminated, events, heq⟩ := @settleRound_eq H env w config hw.nodup
        rw [heq] at hfin ⊢
        obtain ⟨config₁, hc₁, hs₁⟩ := hfin
        cases hc₁
        dsimp only at hs₁
        split_ifs at hs₁ with hle
        exact ⟨if_pos hle, rfl⟩
  rw [← hboard.2] at hlim
  obtain ⟨q, hq, hhead, hmax⟩ := head?_buildLeaderboard (List.ne_nil_of_mem hplays) hlim
  obtain ⟨-, hp⟩ := h.playerState hw' hc' hplays
  obtain ⟨hle, hactive⟩ := h.playerState hw' hc' hq
  have hrounds := hp.mp (((hpay.winner p hwin).2 p).mpr rfl)
  have hge := hmax p hplays
  obtain rfl : q = p := ((hpay.winner p hwin).2 q).mp (hactive.mpr (by omega))
  refine ⟨config', hc', ?_⟩
  rw [← hrounds, ← hhead]
  unfold ArenaStorage.loadLeaderboard
  rw [hboard.1]

end Steps

/-! ## Whole runs -/

section Runs

variable {env : Env H} {outside : H} {now : ℕ} {tr : List (World H × Action H)} {w : World H}

theorem fair_of_run (hrun : Run (Step env) (World.fresh outside now) tr w)
    (hfair : ∀ e ∈ tr, FairStep e.1 e.2) : RoundsPlayed w ∧ ClosedField tr w := by
  refine hrun.history (I := fun tr w => (∀ e ∈ tr, FairStep e.1 e.2) →
    RoundsPlayed w ∧ ClosedField tr w) (fun _ => ⟨fun _ _ _ hc => ?_, fun _ _ _ hmem => ?_⟩)
    (fun tr t a u hr ih hs hfair => ?_) hfair
  · cases hc
  · cases hmem
  obtain ⟨hrounds, hclosed⟩ := ih fun e he => hfair e (List.mem_cons_of_mem _ he)
  have hw := wellFormed_of_run hr
  have hstep := hfair (t, a) List.mem_cons_self
  exact ⟨hrounds.step hw hstep hs, hclosed.step hw hstep hs⟩

/-- In every run in which nobody joins once a round was resolved, and the round
    counter does not saturate: whoever is in the arena was there at every
    `start_round`; active players have survived every round and eliminated
    players fewer; and when `resolve_round` finishes the game with a winner,
    that player has survived every round and heads the leaderboard. -/
theorem fair_field (hrun : Run (Step env) (World.fresh outside now) tr w)
    (hfair : ∀ e ∈ tr, FairStep e.1 e.2) :
    (∀ t auths d, (t, .call auths (.startRound d)) ∈ tr →
      ∀ p ∈ w.storage.loadAllPlayers, p ∈ t.storage.loadAllPlayers) ∧
    (∀ config p state, w.storage.config = some config → w.storage.player p = some state →
      (state.active = true → state.roundsSurvived = config.roundCount) ∧
      (state.active = false → state.roundsSurvived < config.roundCount)) ∧
    ∀ t auths tr' p, tr = (t, .call auths .resolveRound) :: tr' → InState w .Finished →
      w.storage.winner = some p → ∃ config, w.storage.config = some config ∧
        (w.storage.playerState p).roundsSurvived = config.roundCount ∧
        (1 ≤ t.storage.loadLeaderboardLimit →
          w.storage.loadLeaderboard.head? = some ⟨p, config.roundCount⟩) := by
  obtain ⟨hrounds, hclosed⟩ := fair_of_run hrun hfair
  refine ⟨fun t auths d hmem p hp => ?_, hrounds, fun t auths tr' p htr hfin hwin => ?_⟩
  · rw [← (hclosed t _ d hmem rfl).1]
    exact hp
  · subst htr
    obtain ⟨⟨hw, hpay⟩, -⟩ := run_of_fresh hrun
    obtain ⟨config, hc, -⟩ := id hfin
    have hactive : w.storage.isActive p = true := ((hpay.winner p hwin).2 p).mpr rfl
    have hplays := (List.mem_filter.mp ((mem_activePlayers hw.known).mpr hactive)).1
    refine ⟨config, hc, ((hrounds.playerState hw hc hplays).2).mp hactive, fun hlim => ?_⟩
    cases hrun with
    | snoc hr hs =>
      obtain ⟨config', hc', hhead⟩ :=
        hs.winner_heads hrounds (wellFormed_of_run hr) hw hpay hfin hwin hlim
      obtain rfl := Option.some.inj (hc.symm.trans hc')
      exact hhead

/-- A player who joins later is active without having survived every round. -/
theorem late_join_unfair {w' : World H} {auths : List Address} {p : Address}
    {config : ArenaConfig} (hs : Step env w (.call auths (.joinArena p)) w')
    (hc : w.storage.config = some config) (hlate : config.roundCount ≠ 0) : ¬ RoundsPlayed w' := by
  intro h
  cases hs with
  | call _ hexec =>
    cases exec_effect hexec with
    | administered hadm => cases hadm
    | joined hguard ha hc₁ hp hopen hne hban hnone hmax htr hdep =>
      obtain rfl := Option.some.inj (hc.symm.trans hc₁)
      exact hlate ((h _ p ⟨true, 0⟩ rfl (Function.update_self _ _ _)).1 rfl).symm

/-- In the sample game the winner heads the leaderboard. -/
theorem fair_field_game : ∃ tr w,
    Run (Step (reference false)) (World.fresh VaultState.sample 0) tr w ∧
      w.storage.winner = some ⟨11⟩ ∧ ∃ config, w.storage.config = some config ∧
        w.storage.loadLeaderboard.head? = some ⟨⟨11⟩, config.roundCount⟩ := by
  obtain ⟨tr, t, w, hrun, hs, hfair, hstep, hlim, hfin, hwin⟩ : ∃ tr t w,
      Run (Step (reference false)) (World.fresh VaultState.sample 0) tr t ∧
        Step (reference false) t (.call [⟨10⟩] .resolveRound) w ∧
        (∀ e ∈ tr, FairStep e.1 e.2) ∧ FairStep t (.call [⟨10⟩] .resolveRound) ∧
        1 ≤ t.storage.loadLeaderboardLimit ∧ InState w .Finished ∧
        w.storage.winner = some ⟨11⟩ :=
    exists_run_call (sampleGame 100) [⟨10⟩] .resolveRound (by decide +kernel)
  have hrun' := hrun.snoc hs
  have hfair' : ∀ e ∈ (t, Action.call [⟨10⟩] .resolveRound) :: tr, FairStep e.1 e.2 :=
    List.forall_mem_cons.mpr ⟨hstep, hfair⟩
  obtain ⟨config, hc, -, hhead⟩ := (fair_field hrun' hfair').2.2 t _ tr ⟨11⟩ rfl hfin hwin
  exact ⟨_, w, hrun', hwin, config, hc, hhead hlim⟩

/-- Player 13 joins after a first round that both players survive, and is
    active without having survived it. -/
theorem latecomer_active : ∃ tr w,
    Run (Step (reference false))
      (World.fresh (VaultState.init [(⟨11⟩, 100), (⟨12⟩, 100), (⟨13⟩, 100)]) 0) tr w ∧
      (∃ t auths d, (t, .call auths (.startRound d)) ∈ tr ∧
        ⟨13⟩ ∈ w.storage.loadAllPlayers ∧ ⟨13⟩ ∉ t.storage.loadAllPlayers) ∧
      ∃ config state, w.storage.config = some config ∧ w.storage.player ⟨13⟩ = some state ∧
        state.active = true ∧ state.roundsSurvived ≠ config.roundCount := by
  obtain ⟨tr, w, hrun, ⟨⟨t, a⟩, hmem, hstart, hnew, hold⟩, config, hc, state, hstate, hrest⟩ :
      ∃ tr w, Run (Step (reference false))
        (World.fresh (VaultState.init [(⟨11⟩, 100), (⟨12⟩, 100), (⟨13⟩, 100)]) 0) tr w ∧
        (∃ e ∈ tr, e.2.started.isSome = true ∧
          ⟨13⟩ ∈ w.storage.loadAllPlayers ∧ ⟨13⟩ ∉ e.1.storage.loadAllPlayers) ∧
        ∃ config ∈ w.storage.config, ∃ state ∈ w.storage.player ⟨13⟩,
          state.active = true ∧ state.roundsSurvived ≠ config.roundCount :=
    exists_run (sampleJoins 100 ++
      [.call [⟨10⟩] (.startRound 60),
        .call [⟨11⟩] (.submitCommitment ⟨11⟩ (sampleCommitment .Heads)),
        .call [⟨12⟩] (.submitCommitment ⟨12⟩ (sampleCommitment .Tails)), .tick 60,
        .call [⟨11⟩] (.revealChoice ⟨11⟩ .Heads (Vector.replicate 32 0)),
        .call [⟨12⟩] (.revealChoice ⟨12⟩ .Tails (Vector.replicate 32 0)),
        .call [⟨10⟩] .resolveRound, .call [⟨13⟩] (.joinArena ⟨13⟩)]) (by decide +kernel)
  refine ⟨tr, w, hrun, ?_, config, state, hc, hstate, hrest⟩
  cases a with
  | call auths c => cases c with
    | startRound d => exact ⟨t, auths, d, hmem, hnew, hold⟩
    | _ => cases hstart
  | external _ => cases hstart
  | tick _ => cases hstart

end Runs

end InverseArena.Arena
