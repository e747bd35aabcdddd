import InverseArena.Arena.Membership

/-!
# The lifecycle of an arena

How each call moves the arena through its states, and which of the payout
flags go with which state.

Results:
* `Effect.transition`: every call keeps the state or takes a legal transition;
  a finished arena keeps its winner and is left only by a claim.
* `Payouts.step`: a claimed prize means `Settled`, a claimed refund means
  `Cancelled`, and a stored winner means `Finished` or `Settled` with that
  winner the only active player.
-/

namespace InverseArena.Arena

open Host MachineInt Transition

variable {H : Type}

/-- The arena is configured and in state `state`. -/
def InState (w : World H) (state : GameState) : Prop :=
  ∃ config, w.storage.config = some config ∧ config.state = state

instance (w : World H) (state : GameState) : Decidable (InState w state) :=
  decidable_of_iff (∃ config ∈ w.storage.config, config.state = state) Iff.rfl

theorem InState.unique {w : World H} {state state' : GameState} (h : InState w state)
    (h' : InState w state') : state = state' := by
  obtain ⟨config, hc, rfl⟩ := h
  obtain ⟨config', hc', rfl⟩ := h'
  rw [hc] at hc'
  cases hc'
  rfl

/-- Only `initialize` works on an empty storage, and it opens the arena. -/
theorem Effect.opens {env : Env H} {auths : List Address} {w w' : World H} {c : Call}
    (h : Effect env auths w c w') (hnone : w.storage.config = none) : InState w' .Open := by
  cases h with
  | initialized ha hnone hfee hlim hbal => exact ⟨_, rfl, rfl⟩
  | _ => simp_all

/-- An arena is in no two states. -/
theorem InState.elim {w : World H} {state state' : GameState} {config : ArenaConfig} {P : Prop}
    (h : InState w state) (hc : w.storage.config = some config) (hs : config.state = state')
    (hne : state' ≠ state) : P :=
  absurd (InState.unique ⟨config, hc, hs⟩ h) hne

section Active

variable {s : ArenaStorage} {round : ℕ}

theorem mem_activePlayers (hknown : ∀ p, (s.player p).isSome = true ↔ p ∈ s.loadAllPlayers)
    {p : Address} : p ∈ s.activePlayers ↔ s.isActive p = true := by
  unfold ArenaStorage.activePlayers
  rw [List.mem_filter]
  refine ⟨fun h => h.2, fun h => ⟨(hknown p).mp ?_, h⟩⟩
  unfold ArenaStorage.isActive ArenaStorage.loadPlayer at h
  cases hp : s.player p with
  | none => rw [hp] at h; cases h
  | some st => rfl

/-- The storage `s` with the player states after `round`. -/
def ArenaStorage.withPlayersAfter (s : ArenaStorage) (round : ℕ) : ArenaStorage :=
  { s with player := playersAfter s round }

/-- The survivors of a round are the players active after it. -/
theorem isActive_withPlayersAfter
    (hknown : ∀ p, (s.player p).isSome = true ↔ p ∈ s.loadAllPlayers) {p : Address} :
    (s.withPlayersAfter round).isActive p = true ↔ p ∈ survivorsOf s round := by
  have hmem := @mem_activePlayers s hknown p
  unfold ArenaStorage.activePlayers at hmem
  rw [List.mem_filter] at hmem
  have hval : (s.withPlayersAfter round).loadPlayer p = playersAfter s round p := rfl
  unfold survivorsOf ArenaStorage.isActive
  rw [List.mem_filter, hval]
  unfold playersAfter
  by_cases h : p ∈ s.loadAllPlayers ∧ (s.playerState p).active = true
  · rw [if_pos h]
    cases hst : stays (roundTally s round) round s p with
    | true => rw [outcome_of_stays hst]; simp [h]
    | false => rw [outcome_of_not_stays hst]; simp
  · rw [if_neg h]
    constructor
    · intro hact
      have hpa : p ∈ s.loadAllPlayers ∧ s.isActive p = true := hmem.mpr hact
      rw [ArenaStorage.isActive_eq] at hpa
      exact absurd hpa h
    · rintro ⟨hp, hst⟩
      exact absurd ⟨hp, (stays_eq_true.mp hst).1⟩ h

/-- Only the player list and the player states decide who is active. -/
theorem activePlayers_congr {s' : ArenaStorage} (hplayers : s'.players = s.players)
    (hplayer : s'.player = s.player) : s'.activePlayers = s.activePlayers := by
  unfold ArenaStorage.activePlayers ArenaStorage.isActive ArenaStorage.loadPlayer
    ArenaStorage.loadAllPlayers
  rw [hplayers, hplayer]

/-- A new player is active, and the others stay so. -/
theorem activePlayers_join {player : Address} (hnew : player ∉ s.loadAllPlayers)
    {s' : ArenaStorage} (hplayers : s'.players = some (s.loadAllPlayers ++ [player]))
    (hplayer : s'.player = Function.update s.player player (some ⟨true, 0⟩)) :
    s'.activePlayers = s.activePlayers ++ [player] := by
  have hall : s'.loadAllPlayers = s.loadAllPlayers ++ [player] := by
    unfold ArenaStorage.loadAllPlayers
    rw [hplayers]
    rfl
  have hold : ∀ p ∈ s.loadAllPlayers, s'.isActive p = s.isActive p := by
    intro p hp
    have hne : p ≠ player := by rintro rfl; exact hnew hp
    unfold ArenaStorage.isActive ArenaStorage.loadPlayer
    rw [hplayer, Function.update_of_ne hne]
  have hself : s'.isActive player = true := by
    unfold ArenaStorage.isActive ArenaStorage.loadPlayer
    rw [hplayer, Function.update_self]
    rfl
  unfold ArenaStorage.activePlayers
  rw [hall, List.filter_append, List.filter_congr hold, List.filter_singleton, hself]
  rfl

/-- The players active after a round are its survivors. -/
theorem activePlayers_resolved
    (hknown : ∀ p, (s.player p).isSome = true ↔ p ∈ s.loadAllPlayers) {s' : ArenaStorage}
    (hplayers : s'.players = s.players) (hplayer : s'.player = playersAfter s round) :
    s'.activePlayers = survivorsOf s round := by
  rw [activePlayers_congr (s := s.withPlayersAfter round) hplayers hplayer]
  unfold ArenaStorage.activePlayers survivorsOf
  refine List.filter_congr fun p hp => ?_
  have hiff := @isActive_withPlayersAfter s round hknown p
  unfold survivorsOf at hiff
  rw [List.mem_filter] at hiff
  rw [Bool.eq_iff_iff, hiff]
  exact ⟨fun h => h.2, fun h => ⟨hp, h⟩⟩

/-- Whoever is active survives the round or drops out. -/
theorem length_activePlayers (s : ArenaStorage) (round : ℕ) :
    s.activePlayers.length = (survivorsOf s round).length + (droppedFrom s round).length := by
  have hstays : survivorsOf s round =
      s.activePlayers.filter (stays (roundTally s round) round s) := by
    unfold survivorsOf ArenaStorage.activePlayers
    rw [List.filter_filter]
    refine List.filter_congr fun p _ => ?_
    rw [ArenaStorage.isActive_eq]
    unfold stays
    cases (s.playerState p).active with
    | false => rfl
    | true => simp
  have hdrops : droppedFrom s round =
      s.activePlayers.filter fun p => !stays (roundTally s round) round s p := by
    unfold droppedFrom ArenaStorage.activePlayers
    rw [List.filter_filter]
    refine List.filter_congr fun p _ => ?_
    rw [dropsOut_eq, ArenaStorage.isActive_eq, Bool.and_comm]
  rw [hstays, hdrops]
  exact List.length_eq_length_filter_add _

theorem exists_of_mem_activePlayers {p : Address} (h : p ∈ s.activePlayers) :
    ∃ state, s.player p = some state ∧ state.active = true := by
  have hact := (List.mem_filter.mp h).2
  unfold ArenaStorage.isActive ArenaStorage.loadPlayer at hact
  cases hp : s.player p with
  | none => rw [hp] at hact; cases hact
  | some state => rw [hp] at hact; exact ⟨state, rfl, hact⟩

/-- A round in which all active players reveal the same choice eliminates none
    of them. -/
theorem survivorsOf_unanimous {c : Choice}
    (h : ∀ p ∈ s.activePlayers, s.choice (p, round) = some c) :
    survivorsOf s round = s.activePlayers := by
  have hall : ∀ d ∈ activeChoices s round, d = c := by
    intro d hd
    obtain ⟨p, hp, ha, hch⟩ := mem_activeChoices.mp hd
    have hmem : p ∈ s.activePlayers := by
      rw [← ArenaStorage.isActive_eq] at ha
      exact List.mem_filter.mpr ⟨hp, ha⟩
    exact Option.some.inj (hch.symm.trans (h p hmem))
  unfold survivorsOf ArenaStorage.activePlayers
  refine List.filter_congr fun p hp => ?_
  cases hact : s.isActive p with
  | false =>
    rw [ArenaStorage.isActive_eq] at hact
    unfold stays
    rw [hact]
    rfl
  | true =>
    have hch := h p (List.mem_filter.mpr ⟨hp, hact⟩)
    rw [ArenaStorage.isActive_eq] at hact
    refine stays_eq_true.mpr ⟨hact, c, hch, ?_⟩
    have hmem : c ∈ activeChoices s round := mem_activeChoices.mpr ⟨p, hp, hact, hch⟩
    obtain ⟨d, hd, hel⟩ := exists_not_eliminated (List.ne_nil_of_mem hmem)
    rw [hall d hd] at hel
    exact hel

end Active

section Steps

variable {env : Env H} {auths : List Address} {w w' : World H} {c : Call} {config : ArenaConfig}

/-- Every call keeps the state or takes a legal transition. A finished arena
    keeps its winner, and only a claim by that winner leaves the state. -/
theorem Effect.transition (h : Effect env auths w c w') (hw : WellFormed w)
    (hc : w.storage.config = some config) :
    ∃ config', w'.storage.config = some config' ∧
      (config'.state = config.state ∨ canTransition config.state config'.state = true) ∧
      (config.state = .Finished → w'.storage.winner = w.storage.winner ∧
        (config'.state = .Finished ∨ ∃ p, c = .claim p ∧ w.storage.winner = some p)) := by
  cases h with
  | initialized ha hnone hfee hlim hbal => rw [hnone] at hc; cases hc
  | administered hadm hc₁ hc' hlim =>
    obtain rfl := Option.some.inj (hc.symm.trans hc₁)
    exact ⟨_, hc', .inl rfl, fun hs => ⟨rfl, .inl hs⟩⟩
  | joined hguard ha hc₁ hp hs hne hban hnone hmax htr hdep =>
    obtain rfl := Option.some.inj (hc.symm.trans hc₁)
    exact ⟨_, rfl, .inl rfl, fun h => ⟨rfl, .inl h⟩⟩
  | committed ha hc₁ hp hs hnow hpl hpa => exact ⟨_, hc, .inl rfl, fun h => ⟨rfl, .inl h⟩⟩
  | revealed ha hc₁ hp hpl hpa hchoice hnow hcom =>
    exact ⟨_, hc, .inl rfl, fun h => ⟨rfl, .inl h⟩⟩
  | roundStarted hc₁ ha hp hs hmin =>
    obtain rfl := Option.some.inj (hc.symm.trans hc₁)
    exact ⟨_, rfl, .inr (by rw [hs]; rfl), fun h => by rw [hs] at h; cases h⟩
  | roundResolved hguard hc₁ ha hp hs hstart hnow =>
    obtain rfl := Option.some.inj (hc.symm.trans hc₁)
    obtain ⟨bps, eliminated, events, heq⟩ := @settleRound_eq H env w config hw.nodup
    rw [heq]
    refine ⟨_, rfl, .inr ?_, fun h => by rw [hs] at h; cases h⟩
    rw [hs]
    dsimp only
    split_ifs
    · rfl
    · rfl
  | cancelled hguard hc₁ ha hp hs hwd =>
    obtain rfl := Option.some.inj (hc.symm.trans hc₁)
    exact ⟨_, rfl, .inr (by rw [hs]; rfl), fun h => by rw [hs] at h; cases h⟩
  | expired hguard hc₁ hp hs hnow hwd hpay =>
    obtain rfl := Option.some.inj (hc.symm.trans hc₁)
    exact ⟨_, rfl, .inr (by rw [hs]; rfl), fun h => by rw [hs] at h; cases h⟩
  | claimed hguard ha hc₁ hp hs hclaimed hwin hwd htotal htr =>
    obtain rfl := Option.some.inj (hc.symm.trans hc₁)
    exact ⟨_, rfl, .inr (by rw [hs]; rfl), fun _ => ⟨rfl, .inr ⟨_, rfl, hwin⟩⟩⟩
  | forceCancelled hguard hc₁ ha hs =>
    obtain rfl := Option.some.inj (hc.symm.trans hc₁)
    refine ⟨_, rfl, .inr ?_, fun h => ?_⟩
    · rcases hs with hs | hs <;> rw [hs] <;> rfl
    · rcases hs with hs | hs <;> rw [hs] at h <;> cases h
  | forceCancelledAgain hguard hc₁ ha hs =>
    exact ⟨_, hc, .inl rfl, fun h => ⟨rfl, .inl h⟩⟩
  | refunded ha hc₁ hs href hpl htr => exact ⟨_, hc, .inl rfl, fun h => ⟨rfl, .inl h⟩⟩

/-- The players and the rounds played are the same in `w'` as in `w`, and if
    `w'` is open, `w` is. -/
structure Quiet (w w' : World H) : Prop where
  players : w'.storage.players = w.storage.players
  player : w'.storage.player = w.storage.player
  results : w'.storage.roundResult = w.storage.roundResult
  snapshots : w'.storage.yieldSnapshot = w.storage.yieldSnapshot
  configured : ∃ config config', w.storage.config = some config ∧
    w'.storage.config = some config' ∧ config'.roundCount = config.roundCount ∧
    config'.cumulativeYield = config.cumulativeYield ∧
    (config'.state = .Open → config.state = .Open)

/-- The calls that neither set up the arena nor add players nor resolve a round. -/
def Call.isQuiet : Call → Bool
  | .initializeArena _ | .joinArena _ | .resolveRound => false
  | _ => true

theorem Call.isQuiet_of_administrative (h : c.isAdministrative = true) : c.isQuiet = true := by
  cases c with
  | initializeArena a => cases h
  | joinArena p => cases h
  | resolveRound => cases h
  | _ => rfl

theorem Effect.quiet (h : Effect env auths w c w') (hq : c.isQuiet = true) : Quiet w w' := by
  cases h with
  | initialized ha hnone hfee hlim hbal => cases hq
  | administered hadm hc hc' hlim => exact ⟨rfl, rfl, rfl, rfl, _, _, hc, hc', rfl, rfl, id⟩
  | joined hguard ha hc hp hs hne hban hnone hmax htr hdep => cases hq
  | committed ha hc hp hs hnow hpl hpa => exact ⟨rfl, rfl, rfl, rfl, _, _, hc, hc, rfl, rfl, id⟩
  | revealed ha hc hp hpl hpa hchoice hnow hcom =>
    exact ⟨rfl, rfl, rfl, rfl, _, _, hc, hc, rfl, rfl, id⟩
  | roundStarted hc ha hp hs hmin => exact ⟨rfl, rfl, rfl, rfl, _, _, hc, rfl, rfl, rfl, nofun⟩
  | roundResolved hguard hc ha hp hs hstart hnow => cases hq
  | cancelled hguard hc ha hp hs hwd =>
    exact ⟨rfl, rfl, rfl, rfl, _, _, hc, rfl, rfl, rfl, nofun⟩
  | expired hguard hc hp hs hnow hwd hpay =>
    exact ⟨rfl, rfl, rfl, rfl, _, _, hc, rfl, rfl, rfl, nofun⟩
  | claimed hguard ha hc hp hs hclaimed hwin hwd htotal htr =>
    exact ⟨rfl, rfl, rfl, rfl, _, _, hc, rfl, rfl, rfl, nofun⟩
  | forceCancelled hguard hc ha hs => exact ⟨rfl, rfl, rfl, rfl, _, _, hc, rfl, rfl, rfl, nofun⟩
  | forceCancelledAgain hguard hc ha hs => exact ⟨rfl, rfl, rfl, rfl, _, _, hc, hc, rfl, rfl, id⟩
  | refunded ha hc hs href hpl htr => exact ⟨rfl, rfl, rfl, rfl, _, _, hc, hc, rfl, rfl, id⟩

/-- `Cancelled` and `Settled` are never left. -/
theorem Effect.terminal (h : Effect env auths w c w') (hw : WellFormed w) {state : GameState}
    (hterm : ∀ target, canTransition state target = false) (hs : InState w state) :
    InState w' state := by
  obtain ⟨config, hc, rfl⟩ := hs
  obtain ⟨config', hc', heq | htr, -⟩ := h.transition hw hc
  · exact ⟨config', hc', heq⟩
  · rw [hterm] at htr; cases htr

theorem cancelled_terminal (target : GameState) : canTransition .Cancelled target = false := by
  cases target <;> rfl

theorem settled_terminal (target : GameState) : canTransition .Settled target = false := by
  cases target <;> rfl

/-- A finished arena without a winner stays one. -/
theorem Effect.unclaimable (h : Effect env auths w c w') (hw : WellFormed w)
    (hs : InState w .Finished) (hwin : w.storage.winner = none) :
    InState w' .Finished ∧ w'.storage.winner = none := by
  obtain ⟨config, hc, hfin⟩ := hs
  obtain ⟨config', hc', -, hkeep⟩ := h.transition hw hc
  obtain ⟨hwin', hfin' | ⟨p, -, hp⟩⟩ := hkeep hfin
  · exact ⟨⟨config', hc', hfin'⟩, hwin'.trans hwin⟩
  · rw [hwin] at hp; cases hp

end Steps

/-- Which payout flags go with which state. -/
structure Payouts (w : World H) : Prop where
  claimed : w.storage.isPrizeClaimed = true → InState w .Settled
  refunded : ∀ p, w.storage.isRefundClaimed p = true → InState w .Cancelled
  winner : ∀ p, w.storage.winner = some p →
    (InState w .Finished ∨ InState w .Settled) ∧ ∀ q, w.storage.isActive q = true ↔ q = p

theorem payouts_fresh (outside : H) (now : ℕ) : Payouts (World.fresh outside now) where
  claimed := fun h => nomatch h
  refunded := fun _ h => nomatch h
  winner := fun _ h => nomatch h

section PayoutSteps

variable {env : Env H} {auths : List Address} {w w' : World H} {c : Call}

/-- The winner is a player. -/
theorem Payouts.winner_mem (h : Payouts w) (hw : WellFormed w) {p : Address}
    (hwin : w.storage.winner = some p) : p ∈ w.storage.loadAllPlayers := by
  have hactive : w.storage.isActive p = true := ((h.winner p hwin).2 p).mpr rfl
  exact (List.mem_filter.mp ((mem_activePlayers hw.known).mpr hactive)).1

/-- While the game is on no payout flag is set. -/
theorem Payouts.undecided (h : Payouts w) (hs : InState w .Open ∨ InState w .Active) :
    w.storage.isPrizeClaimed = false ∧ (∀ p, w.storage.isRefundClaimed p = false) ∧
      w.storage.winner = none := by
  refine ⟨?_, fun p => ?_, ?_⟩
  · cases hb : w.storage.isPrizeClaimed with
    | false => rfl
    | true => rcases hs with hs | hs <;> cases hs.unique (h.claimed hb)
  · cases hb : w.storage.isRefundClaimed p with
    | false => rfl
    | true => rcases hs with hs | hs <;> cases hs.unique (h.refunded p hb)
  · cases hb : w.storage.winner with
    | none => rfl
    | some p =>
      obtain ⟨hf | hf, -⟩ := h.winner p hb <;> rcases hs with hs | hs <;> cases hs.unique hf

/-- A change that keeps the flags, the state and who is active. -/
theorem Payouts.frame (h : Payouts w) (hs : ∀ state, InState w state → InState w' state)
    (hprize : w'.storage.prizeClaimed = w.storage.prizeClaimed)
    (href : w'.storage.refundClaimed = w.storage.refundClaimed)
    (hwin : w'.storage.winner = w.storage.winner)
    (hpl : w'.storage.player = w.storage.player) : Payouts w' where
  claimed := fun hb => hs _ (h.claimed (by
    unfold ArenaStorage.isPrizeClaimed at hb ⊢; rw [hprize] at hb; exact hb))
  refunded := fun p hb => hs _ (h.refunded p (by
    unfold ArenaStorage.isRefundClaimed at hb ⊢; rw [href] at hb; exact hb))
  winner := fun p hp => by
    rw [hwin] at hp
    obtain ⟨hst, hact⟩ := h.winner p hp
    refine ⟨hst.imp (hs _) (hs _), fun q => ?_⟩
    unfold ArenaStorage.isActive ArenaStorage.loadPlayer at hact ⊢
    rw [hpl]
    exact hact q

/-- A change made while the game is on that sets no flag. -/
theorem Payouts.of_undecided (h : Payouts w) (hs : InState w .Open ∨ InState w .Active)
    (hprize : w'.storage.prizeClaimed = w.storage.prizeClaimed)
    (href : w'.storage.refundClaimed = w.storage.refundClaimed)
    (hwin : w'.storage.winner = w.storage.winner) : Payouts w' := by
  obtain ⟨h1, h2, h3⟩ := h.undecided hs
  exact {
    claimed := fun hb => by
      unfold ArenaStorage.isPrizeClaimed at hb h1; rw [hprize, h1] at hb; cases hb
    refunded := fun p hb => by
      have h2 := h2 p
      unfold ArenaStorage.isRefundClaimed at hb h2; rw [href, h2] at hb; cases hb
    winner := fun p hp => by rw [hwin, h3] at hp; cases hp }

theorem Payouts.effect (hw : WellFormed w) (h : Payouts w) (he : Effect env auths w c w') :
    Payouts w' := by
  cases he with
  | initialized ha hnone hfee hlim hbal =>
    have hfresh := hw.blank hnone
    exact {
      claimed := fun hb => by
        change w.storage.isPrizeClaimed = true at hb; rw [hfresh] at hb; cases hb
      refunded := fun p hb => by
        change w.storage.isRefundClaimed p = true at hb; rw [hfresh] at hb; cases hb
      winner := fun p hp => by
        change w.storage.winner = some p at hp; rw [hfresh] at hp; cases hp }
  | administered hadm hc hc' hlim =>
    refine h.frame ?_ rfl rfl rfl rfl
    rintro state ⟨config, hc₁, hs⟩
    obtain rfl := Option.some.inj (hc.symm.trans hc₁)
    exact ⟨_, hc', hs⟩
  | joined hguard ha hc hp hs hne hban hnone hmax htr hdep =>
    exact h.of_undecided (.inl ⟨_, hc, hs⟩) rfl rfl rfl
  | committed ha hc hp hs hnow hpl hpa => exact h.frame (fun _ hs => hs) rfl rfl rfl rfl
  | revealed ha hc hp hpl hpa hchoice hnow hcom => exact h.frame (fun _ hs => hs) rfl rfl rfl rfl
  | roundStarted hc ha hp hs hmin => exact h.of_undecided (.inl ⟨_, hc, hs⟩) rfl rfl rfl
  | @roundResolved config _ hguard hc ha hp hs hstart hnow =>
    obtain ⟨h1, h2, h3⟩ := h.undecided (.inr ⟨_, hc, hs⟩)
    obtain ⟨bps, eliminated, events, heq⟩ := @settleRound_eq H env w config hw.nodup
    rw [heq]
    refine ⟨fun hb => ?_, fun p hb => ?_, fun p hp => ?_⟩
    · change w.storage.isPrizeClaimed = true at hb; rw [h1] at hb; cases hb
    · change w.storage.isRefundClaimed p = true at hb; rw [h2] at hb; cases hb
    · -- a winner is stored only when exactly one player survives
      change (if (survivorsOf w.storage config.round).length = 1 then
        (survivorsOf w.storage config.round).head? else w.storage.winner) = some p at hp
      rw [h3] at hp
      split_ifs at hp with hone
      obtain ⟨a, ha⟩ := List.length_eq_one_iff.mp hone
      rw [ha] at hp
      cases hp
      refine ⟨.inl ⟨_, rfl, if_pos (by exact hone.le)⟩, fun q => ?_⟩
      change (w.storage.withPlayersAfter config.round).isActive q = true ↔ _
      rw [isActive_withPlayersAfter hw.known, ha, List.mem_singleton]
  | cancelled hguard hc ha hp hs hwd => exact h.of_undecided (.inl ⟨_, hc, hs⟩) rfl rfl rfl
  | expired hguard hc hp hs hnow hwd hpay =>
    exact h.of_undecided (.inr ⟨_, hc, hs⟩) rfl rfl rfl
  | @claimed p config _ _ _ _ hguard ha hc hp hs hclaimed hwin hwd htotal htr =>
    refine ⟨fun _ => ⟨_, rfl, rfl⟩, fun q hq => ?_, fun q hq => ?_⟩
    · cases InState.unique ⟨_, hc, hs⟩ (h.refunded q hq)
    · exact ⟨.inr ⟨_, rfl, rfl⟩, (h.winner q hq).2⟩
  | forceCancelled hguard hc ha hs =>
    exact h.of_undecided (hs.imp (fun hs => ⟨_, hc, hs⟩) (fun hs => ⟨_, hc, hs⟩)) rfl rfl rfl
  | forceCancelledAgain hguard hc ha hs => exact h.frame (fun _ hs => hs) rfl rfl rfl rfl
  | refunded ha hc hs href hpl htr =>
    refine ⟨fun hb => ?_, fun _ _ => ⟨_, hc, hs⟩, fun q hq => ?_⟩
    · cases InState.unique ⟨_, hc, hs⟩ (h.claimed hb)
    · obtain ⟨hf | hf, -⟩ := h.winner q hq <;> cases InState.unique ⟨_, hc, hs⟩ hf

theorem Payouts.step {a : Action H} (hw : WellFormed w) (h : Payouts w) (hs : Step env w a w') :
    Payouts w' := by
  cases hs with
  | call _ hexec => exact h.effect hw (exec_effect hexec)
  | external _ => exact h.frame (fun _ hs => hs) rfl rfl rfl rfl
  | tick _ _ => exact h.frame (fun _ hs => hs) rfl rfl rfl rfl

end PayoutSteps

end InverseArena.Arena
