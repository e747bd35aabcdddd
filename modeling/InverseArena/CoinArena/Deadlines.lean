import InverseArena.CoinArena.Replay

/-!
# Rounds and their deadlines

`start_round` and the join that fills the arena announce a round and store its
deadline, but `resolve_round` reads neither the deadline nor which round was
announced, and `auto_resolve` compares the time with the join deadline.

Results:
* `Effect.isResolution_of_eliminated`: only resolutions eliminate.
* `Announced.step`: what the storage knows of the last round announced.
* `roundsKept_of_guarded`: nobody is eliminated before the deadline and each
  announced round is resolved at most once, in the runs that resolve only after
  the stored deadline and while the round announced last is the current one.
-/

namespace InverseArena.CoinArena

open Host KeyedMap MachineInt Transition

variable {G H : Type}

/-- A round that was announced with a deadline. -/
structure RoundStart where
  round : ℕ
  deadline : ℕ

/-- The round that a step announces. -/
def announces (t : World G H) : Action H → Option RoundStart
  | .call _ (.startRound deadline) => some ⟨t.round + 1, deadline⟩
  | .call _ (.join _) => t.storage.config.bind fun config =>
    if config.Fills then some ⟨1, satAddU64 config.joinDeadline 86400⟩ else none
  | _ => none

/-- The round announced last, since the arena was initialized. -/
def lastStart : List (World G H × Action H) → Option RoundStart
  | [] => none
  | (_, .call _ (.initializeArena _)) :: _ => none
  | (t, a) :: tr => announces t a <|> lastStart tr

def Action.isResolution : Action H → Bool
  | .call _ c => c.isResolution
  | _ => false

/-- How often a round has been resolved since the last one was announced. -/
def resolutions : List (World G H × Action H) → ℕ
  | [] => 0
  | (t, a) :: tr =>
    if (announces t a).isSome then 0
    else (if a.isResolution then 1 else 0) + resolutions tr

/-- The last step has eliminated active players only after the deadline of the
    round in progress, and the round announced last is resolved at most once. -/
def RoundsKept : List (World G H × Action H) → World G H → Prop
  | [], _ => True
  | (t, a) :: tr, u =>
    (∀ p, t.storage.isPlayerActive p = true → u.storage.active p = some false →
      ∀ start, lastStart tr = some start → start.deadline < t.now) ∧
    ((lastStart ((t, a) :: tr)).isSome → resolutions ((t, a) :: tr) ≤ 1)

/-- Where a round has been announced, it is resolved after the stored deadline and
    while it is the current one. -/
def RoundGuarded (tr : List (World G H × Action H)) (t : World G H) : Action H → Prop
  | .call _ .resolveRound | .call _ .autoResolve => ∀ start ∈ lastStart tr,
    (∀ deadline ∈ t.storage.getRoundDeadline, deadline < t.now) ∧ t.round = start.round
  | _ => True

instance (tr : List (World G H × Action H)) (t : World G H) (a : Action H) :
    Decidable (RoundGuarded tr t a) :=
  decidable_of_iff ((match a with
    | .call _ .resolveRound | .call _ .autoResolve => decide (∀ start ∈ lastStart tr,
      (∀ deadline ∈ t.storage.getRoundDeadline, deadline < t.now) ∧ t.round = start.round)
    | _ => true) = true) (by unfold RoundGuarded; split <;> simp)

/-! ## Eliminations -/

variable {env : Env G H} {auths : List Address} {t u w : World G H} {a : Action H} {c : Call}
  {tr : List (World G H × Action H)}

theorem not_eliminated {p : Address} (hactive : t.storage.isPlayerActive p = true) :
    t.storage.active p ≠ some false := by
  intro hout
  unfold ArenaStorage.isPlayerActive at hactive
  rw [hout] at hactive
  cases hactive

/-- Only resolutions eliminate. -/
theorem Effect.isResolution_of_eliminated (h : Effect env auths t c u) {p : Address}
    (hactive : t.storage.isPlayerActive p = true) (hout : u.storage.active p = some false) :
    c.isResolution = true := by
  cases h with
  | resolved hres => exact hres
  | @joined player =>
    by_cases hp : p = player
    · subst hp
      have hnew : Function.update t.storage.active p (some true) p = some false := hout
      rw [Function.update_self] at hnew
      cases hnew
    · have hold : Function.update t.storage.active player (some true) p = some false := hout
      rw [Function.update_of_ne hp] at hold
      exact absurd hold (not_eliminated hactive)
  | cleaned =>
    rw [ArenaStorage.cleanupArenaData_eq] at hout
    by_cases hp : p ∈ t.storage.loadAllPlayers
    · have hnone : without t.storage.active t.storage.loadAllPlayers p = some false := hout
      rw [without_of_mem hp] at hnone
      cases hnone
    · have hold : without t.storage.active t.storage.loadAllPlayers p = some false := hout
      rw [without_of_notMem hp] at hold
      exact absurd hold (not_eliminated hactive)
  | _ => exact absurd hout (not_eliminated hactive)

theorem Step.isResolution_of_eliminated (h : Step env t a u) {p : Address}
    (hactive : t.storage.isPlayerActive p = true) (hout : u.storage.active p = some false) :
    a.isResolution = true := by
  cases h with
  | call _ hexec => exact (exec_effect hexec).isResolution_of_eliminated hactive hout
  | _ => exact absurd hout (not_eliminated hactive)

/-! ## The round announced last -/

/-- After the steps `tr`, which meet the condition. -/
structure Announced (tr : List (World G H × Action H)) (w : World G H) : Prop where
  deadline : ∀ start, lastStart tr = some start → w.storage.roundDeadline = some start.deadline
  positive : ∀ start, lastStart tr = some start → 1 ≤ start.round
  once : ∀ start, lastStart tr = some start → resolutions tr ≤ 1
  resolved : ∀ start, lastStart tr = some start → 0 < resolutions tr → w.round ≠ start.round

/-- A step that announces no round and resolves none. -/
theorem Announced.frame (h : Announced tr t) (hstart : lastStart ((t, a) :: tr) = lastStart tr)
    (hnone : announces t a = none) (hres : a.isResolution = false)
    (hdeadline : u.storage.roundDeadline = t.storage.roundDeadline)
    (hround : u.round = t.round ∨ u.round = 0) : Announced ((t, a) :: tr) u := by
  have hcount : resolutions ((t, a) :: tr) = resolutions tr := by
    simp [resolutions, hnone, hres]
  refine ⟨fun start hs => ?_, fun start hs => ?_, fun start hs => ?_, fun start hs hpos => ?_⟩
  · rw [hdeadline]
    exact h.deadline start (hstart ▸ hs)
  · exact h.positive start (hstart ▸ hs)
  · rw [hcount]
    exact h.once start (hstart ▸ hs)
  · rw [hcount] at hpos
    have hpositive := h.positive start (hstart ▸ hs)
    rcases hround with hround | hround
    · rw [hround]
      exact h.resolved start (hstart ▸ hs) hpos
    · omega

/-- A step that announces a round. -/
theorem Announced.of_announces {start : RoundStart}
    (hstart : lastStart ((t, a) :: tr) = some start) (hnew : announces t a = some start)
    (hdeadline : u.storage.roundDeadline = some start.deadline) (hpos : 1 ≤ start.round) :
    Announced ((t, a) :: tr) u := by
  have hcount : resolutions ((t, a) :: tr) = 0 := by simp [resolutions, hnew]
  refine ⟨fun s hs => ?_, fun s hs => ?_, fun s hs => ?_, fun s hs hlt => ?_⟩
  · cases hstart.symm.trans hs
    exact hdeadline
  · cases hstart.symm.trans hs
    exact hpos
  · rw [hcount]
    exact Nat.zero_le _
  · rw [hcount] at hlt
    cases hlt

/-- No round is announced once the arena is initialized. -/
theorem Announced.of_none (h : lastStart tr = none) : Announced tr u := by
  refine ⟨fun s hs => ?_, fun s hs => ?_, fun s hs => ?_, fun s hs => ?_⟩
  all_goals
    rw [h] at hs
    cases hs

/-- A resolution of the round announced last. -/
theorem Announced.resolve (h : Announced tr t) (hres : c.isResolution = true)
    (hg : RoundGuarded tr t (.call auths c))
    (hdeadline : u.storage.roundDeadline = t.storage.roundDeadline)
    (hround : u.round = t.round + 1) : Announced ((t, .call auths c) :: tr) u := by
  have hstart : lastStart ((t, .call auths c) :: tr) = lastStart tr := by
    cases c with
    | resolveRound | autoResolve => rfl
    | _ => cases hres
  have hcount : resolutions ((t, .call auths c) :: tr) = resolutions tr + 1 := by
    cases c with
    | resolveRound | autoResolve => simp [resolutions, announces, Action.isResolution,
        Call.isResolution, add_comm]
    | _ => cases hres
  have hcurrent : ∀ start, lastStart tr = some start → t.round = start.round := fun start hs => by
    cases c with
    | resolveRound | autoResolve => exact (hg start hs).2
    | _ => cases hres
  refine ⟨fun start hs => ?_, fun start hs => ?_, fun start hs => ?_, fun start hs _ => ?_⟩
  · rw [hdeadline]
    exact h.deadline start (hstart ▸ hs)
  · exact h.positive start (hstart ▸ hs)
  · have hzero : ¬ 0 < resolutions tr := fun hpos =>
      h.resolved start (hstart ▸ hs) hpos (hcurrent start (hstart ▸ hs))
    omega
  · have hsame := hcurrent start (hstart ▸ hs)
    omega

/-- Calls that concern no round. -/
theorem quiet_lastStart (t : World G H) (auths : List Address) (tr : List (World G H × Action H))
    (h : c.isTuning || c.isGlobal) :
    lastStart ((t, .call auths c) :: tr) = lastStart tr ∧
      announces t (.call auths c : Action H) = none ∧ c.isResolution = false := by
  cases c with
  | pause | unpause | updateTreasury => exact ⟨rfl, rfl, rfl⟩
  | setCreationCooldown | setSlashRate => exact ⟨rfl, rfl, rfl⟩
  | updateRoundBounds | updatePlatformFee => exact ⟨rfl, rfl, rfl⟩
  | _ => cases h

theorem Announced.effect (h : Announced tr t) (heff : Effect env auths t c u)
    (hg : RoundGuarded tr t (.call auths c)) : Announced ((t, .call auths c) :: tr) u := by
  cases heff with
  | initialized => exact .of_none rfl
  | tuned ht =>
    obtain ⟨hstart, hnone, hres⟩ := quiet_lastStart (c := c) t auths tr (by simp [ht])
    exact h.frame hstart hnone hres rfl (.inl rfl)
  | regulated hglobal =>
    obtain ⟨hstart, hnone, hres⟩ := quiet_lastStart (c := c) t auths tr (by simp [hglobal])
    exact h.frame hstart hnone hres rfl (.inl rfl)
  | cancelled _ _ hby =>
    rcases hby with ⟨rfl, -⟩ | ⟨rfl, -⟩
    · exact h.frame rfl rfl rfl rfl (.inl rfl)
    · exact h.frame rfl rfl rfl rfl (.inl rfl)
  | @joined player config outside stats round deadline events hc _ _ _ _ _ _ hround hdeadline =>
    by_cases hfills : config.Fills
    · have hnew : announces t (.call auths (.join player) : Action H) =
          some ⟨1, satAddU64 config.joinDeadline 86400⟩ := by
        simp [announces, hc, hfills]
      refine .of_announces ?_ hnew ?_ le_rfl
      · simp [lastStart, hnew]
      · exact hdeadline.trans (if_pos hfills)
    · have hnone : announces t (.call auths (.join player) : Action H) = none := by
        simp [announces, hc, hfills]
      refine h.frame ?_ hnone rfl ?_ (.inl ?_)
      · simp [lastStart, hnone]
      · exact hdeadline.trans (if_neg hfills)
      · exact congrArg (·.getD 0) (hround.trans (if_neg hfills))
  | roundStarted => exact .of_announces rfl rfl rfl (Nat.le_add_left _ _)
  | resolved hres => exact h.resolve hres hg rfl rfl
  | cleaned =>
    rw [ArenaStorage.cleanupArenaData_eq]
    exact h.frame rfl rfl rfl rfl (.inr rfl)
  | _ => exact h.frame rfl rfl rfl rfl (.inl rfl)

theorem Announced.step (h : Announced tr t) (hs : Step env t a u) (hg : RoundGuarded tr t a) :
    Announced ((t, a) :: tr) u := by
  cases hs with
  | call _ hexec => exact h.effect (exec_effect hexec) hg
  | _ => exact h.frame rfl rfl rfl rfl (.inl rfl)

theorem announced_of_run {globals : G} {outside : H} {now sequence : ℕ}
    (hrun : Run (Step env) (.fresh globals outside now sequence) tr w)
    (heach : EachStep RoundGuarded tr) : Announced tr w := by
  induction hrun with
  | nil => exact .of_none rfl
  | snoc _ hs ih => exact (ih heach.2).step hs heach.1

/-! ## Whole runs -/

/-- A step that meets the condition. -/
theorem Announced.roundsKept (h : Announced tr t) (hs : Step env t a u)
    (hg : RoundGuarded tr t a) : RoundsKept ((t, a) :: tr) u := by
  constructor
  · intro p hactive hout start hstart
    have hres := hs.isResolution_of_eliminated hactive hout
    cases a with
    | call auths c =>
      cases c with
      | resolveRound | autoResolve => exact (hg start hstart).1 _ (h.deadline start hstart)
      | _ => cases hres
    | _ => cases hres
  · intro hsome
    obtain ⟨start, hstart⟩ := Option.isSome_iff_exists.mp hsome
    exact (h.step hs hg).once start hstart

/-- In every run of any calls by any callers, whose steps are guarded: no active
    player is eliminated before the deadline of the round in progress has passed,
    and each announced round is resolved at most once. -/
theorem roundsKept_of_guarded {globals : G} {outside : H} {now sequence : ℕ}
    (hrun : Run (Step env) (.fresh globals outside now sequence) tr w)
    (heach : EachStep RoundGuarded tr) : AlongRun RoundsKept tr w := by
  refine hrun.alongRun_of_each (fun tr t hr heach => ?_) heach
  cases hr with
  | nil => trivial
  | snoc hr hs => exact (announced_of_run hr heach.2).roundsKept hs heach.1

/-- A round that ends at time 500 is resolved at time 600, and player 12, who made
    no choice, is out. -/
theorem roundsKept_of_guarded_sample : ∃ tr w, Run (Step sampleEnv) sampleWorld tr w ∧
    w.now = 600 ∧ w.storage.active ⟨12⟩ = some false ∧ AlongRun RoundsKept tr w := by
  obtain ⟨tr, w, hrun, heach, hnow, hout⟩ : ∃ tr w, Run (Step sampleEnv) sampleWorld tr w ∧
      EachStep RoundGuarded tr ∧ w.now = 600 ∧ w.storage.active ⟨12⟩ = some false :=
    exists_run (sampleJoins 10 ++ [.call [⟨10⟩] .startGame, .call [⟨10⟩] (.startRound 500),
      .call [⟨11⟩] (.submitChoice ⟨11⟩ .Heads), .tick 600 1, .call [] .resolveRound])
      (by decide +kernel)
  exact ⟨tr, w, hrun, hnow, hout, roundsKept_of_guarded hrun heach⟩

/-- A round that ends at time 500 is resolved at time 0, before player 12 has made a
    choice. -/
theorem not_roundsKept : ¬ ∀ tr w, Run (Step sampleEnv) sampleWorld tr w →
    AlongRun RoundsKept tr w := by
  intro hall
  obtain ⟨tr, t, u, hrun, hstep, hactive, hout, hnow, hstart⟩ : ∃ tr t u,
      Run (Step sampleEnv) sampleWorld tr t ∧ Step sampleEnv t (.call [] .resolveRound) u ∧
        t.storage.isPlayerActive ⟨12⟩ = true ∧ u.storage.active ⟨12⟩ = some false ∧
        t.now = 0 ∧ (lastStart tr).map RoundStart.deadline = some 500 :=
    exists_run_call (sampleJoins 10 ++ [.call [⟨10⟩] .startGame, .call [⟨10⟩] (.startRound 500),
      .call [⟨11⟩] (.submitChoice ⟨11⟩ .Heads)]) [] .resolveRound (by decide +kernel)
  obtain ⟨start, hlast, hdeadline⟩ := Option.map_eq_some_iff.mp hstart
  have hlt := (hall _ _ (hrun.snoc hstep)).last.1 ⟨12⟩ hactive hout start hlast
  omega

end InverseArena.CoinArena
