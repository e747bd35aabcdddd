import InverseArena.Arena.Lifecycle

/-!
# The clock of a round

`start_round` writes `commit_deadline`, `round_start` and `round_duration`
(`contract/arena/src/lib.rs`, lines 572-576), and nothing else does.

Results:
* `Effect.clock`: every other call keeps them, and plays on the same round as
  long as the arena stays active.
* `roundClock_of_run`: so they go back to the last `start_round` of the run,
  and without one the arena is not active.
-/

namespace InverseArena.Arena

open MachineInt Transition

variable {H : Type}

/-- The duration of a call of `start_round`. -/
def Action.started : Action H → Option ℕ
  | .call _ (.startRound durationSeconds) => some durationSeconds
  | _ => none

/-- The last `start_round` among the steps `tr`: the world in which it was
    called and its duration. -/
def lastStart (tr : List (World H × Action H)) : Option (World H × ℕ) :=
  tr.findSome? fun e => e.2.started.map fun durationSeconds => (e.1, durationSeconds)

/-- The steps since then, newest first. -/
def sinceStart (tr : List (World H × Action H)) : List (World H × Action H) :=
  tr.takeWhile fun e => e.2.started.isNone

section History

variable {tr : List (World H × Action H)} {w : World H} {a : Action H}

theorem sinceStart_cons (ha : a.started = none) :
    sinceStart ((w, a) :: tr) = (w, a) :: sinceStart tr := by
  unfold sinceStart
  rw [List.takeWhile_cons_of_pos (by simp [ha])]

theorem sinceStart_cons_of_start {d : ℕ} (ha : a.started = some d) :
    sinceStart ((w, a) :: tr) = [] := by
  unfold sinceStart
  rw [List.takeWhile_cons_of_neg (by simp [ha])]

theorem lastStart_cons (ha : a.started = none) : lastStart ((w, a) :: tr) = lastStart tr := by
  unfold lastStart
  rw [List.findSome?_cons_of_isNone]
  simp [ha]

theorem lastStart_cons_of_start {d : ℕ} (ha : a.started = some d) :
    lastStart ((w, a) :: tr) = some (w, d) := by
  unfold lastStart
  rw [List.findSome?_cons_of_isSome]
  · simp [ha]
  · simp [ha]

theorem started_of_ne {auths : List Address} {c : Call} (h : ∀ d, c ≠ .startRound d) :
    (Action.call auths c : Action H).started = none := by
  cases c with
  | startRound d => exact absurd rfl (h d)
  | _ => rfl

end History

/-- `w'` has the clock of `w`, and if its arena is active it is playing the
    same round. -/
def SameClock (w w' : World H) : Prop := ∀ config, w.storage.config = some config →
  w'.storage.roundStart = w.storage.roundStart ∧
  w'.storage.roundDuration = w.storage.roundDuration ∧
  ∃ config', w'.storage.config = some config' ∧ config'.commitDeadline = config.commitDeadline ∧
    (config'.state = .Active → config.state = .Active ∧ config'.roundCount = config.roundCount)

section Steps

variable {env : Env H} {auths : List Address} {w w' : World H} {c : Call}

theorem SameClock.of_eq (h : w'.storage = w.storage) : SameClock w w' := by
  intro config hc
  rw [h]
  exact ⟨rfl, rfl, config, hc, rfl, fun hs => ⟨hs, rfl⟩⟩

/-- Every call but `start_round` keeps the clock. -/
theorem Effect.clock (h : Effect env auths w c w') (hw : WellFormed w)
    (hstart : ∀ d, c ≠ .startRound d) : SameClock w w' := by
  intro config hc
  cases h with
  | initialized ha hnone hfee hlim hbal => rw [hnone] at hc; cases hc
  | administered hadm hc₁ hc' hlim =>
    obtain rfl := Option.some.inj (hc.symm.trans hc₁)
    exact ⟨rfl, rfl, _, hc', rfl, fun hs => ⟨hs, rfl⟩⟩
  | joined hguard ha hc₁ hp hs hne hban hnone hmax htr hdep =>
    obtain rfl := Option.some.inj (hc.symm.trans hc₁)
    exact ⟨rfl, rfl, _, rfl, rfl, fun hs' => ⟨hs', rfl⟩⟩
  | committed ha hc₁ hp hs hnow hpl hpa =>
    exact ⟨rfl, rfl, config, hc, rfl, fun hs => ⟨hs, rfl⟩⟩
  | revealed ha hc₁ hp hpl hpa hchoice hnow hopen =>
    exact ⟨rfl, rfl, config, hc, rfl, fun hs => ⟨hs, rfl⟩⟩
  | roundStarted hc₁ ha hp hs hmin => exact absurd rfl (hstart _)
  | roundResolved hguard hc₁ ha hp hs hround hnow =>
    obtain rfl := Option.some.inj (hc.symm.trans hc₁)
    obtain ⟨bps, eliminated, events, heq⟩ := @settleRound_eq H env w config hw.nodup
    rw [heq]
    refine ⟨rfl, rfl, _, rfl, rfl, fun hs' => ?_⟩
    dsimp only at hs'
    split_ifs at hs'
  | cancelled hguard hc₁ ha hp hs hwd =>
    obtain rfl := Option.some.inj (hc.symm.trans hc₁)
    exact ⟨rfl, rfl, _, rfl, rfl, fun hs' => by cases hs'⟩
  | expired hguard hc₁ hp hs hnow hwd hpay =>
    obtain rfl := Option.some.inj (hc.symm.trans hc₁)
    exact ⟨rfl, rfl, _, rfl, rfl, fun hs' => by cases hs'⟩
  | claimed hguard ha hc₁ hp hs hclaimed hwin hwd htotal htr =>
    obtain rfl := Option.some.inj (hc.symm.trans hc₁)
    exact ⟨rfl, rfl, _, rfl, rfl, fun hs' => by cases hs'⟩
  | forceCancelled hguard hc₁ ha hs =>
    obtain rfl := Option.some.inj (hc.symm.trans hc₁)
    exact ⟨rfl, rfl, _, rfl, rfl, fun hs' => by cases hs'⟩
  | forceCancelledAgain hguard hc₁ ha hs =>
    exact ⟨rfl, rfl, config, hc, rfl, fun hs' => ⟨hs', rfl⟩⟩
  | refunded ha hc₁ hs href hpl htr => exact ⟨rfl, rfl, config, hc, rfl, fun hs' => ⟨hs', rfl⟩⟩

theorem Step.clock {a : Action H} (h : Step env w a w') (hw : WellFormed w)
    (ha : a.started = none) : SameClock w w' := by
  cases h with
  | call _ hexec =>
    refine (exec_effect hexec).clock hw fun d hd => ?_
    rw [hd] at ha
    cases ha
  | external _ => exact .of_eq rfl
  | tick _ _ => exact .of_eq rfl

/-- `start_round` sets the clock. -/
theorem Step.of_start {a : Action H} {d : ℕ} (h : Step env w a w') (ha : a.started = some d) :
    ∃ config config', w.storage.config = some config ∧ w'.storage.config = some config' ∧
      config'.roundCount = config.roundCount ∧ config'.commitDeadline = satAddU64 w.now d ∧
      w'.storage.roundStart = some w.now ∧ w'.storage.roundDuration = some d ∧
      w'.now = w.now := by
  unfold Action.started at ha
  split at ha
  · cases ha
    cases h with
    | call _ hexec =>
      cases exec_effect hexec with
      | administered hadm => cases hadm
      | roundStarted hc hauth hp hs hmin => exact ⟨_, _, hc, rfl, rfl, rfl, rfl, rfl, rfl⟩
  · cases ha

/-- A step that stays active, other than `start_round`, started active. -/
theorem Step.active_of_active {a : Action H} (h : Step env w a w') (hw : WellFormed w)
    (ha : a.started = none) (hs' : InState w' .Active) : InState w .Active := by
  cases hc : w.storage.config with
  | some config =>
    obtain ⟨-, -, config', hc', -, hact⟩ := h.clock hw ha config hc
    obtain ⟨config'', hc'', hs''⟩ := hs'
    obtain rfl := Option.some.inj (hc'.symm.trans hc'')
    exact ⟨config, hc, (hact hs'').1⟩
  | none =>
    cases h with
    | call _ hexec => cases hs'.unique ((exec_effect hexec).opens hc)
    | external _ =>
      obtain ⟨config', hc', -⟩ := hs'
      rw [hc] at hc'
      cases hc'
    | tick _ _ =>
      obtain ⟨config', hc', -⟩ := hs'
      rw [hc] at hc'
      cases hc'

theorem Step.now_le {a : Action H} (h : Step env w a w') (hw : WellFormed w) : w.now ≤ w'.now := by
  cases h with
  | call _ hexec =>
    cases exec_effect hexec with
    | @roundResolved config _ hguard hc ha hp hs hround hnow =>
      obtain ⟨bps, eliminated, events, heq⟩ := @settleRound_eq H env w config hw.nodup
      rw [heq]
    | _ => exact le_rfl
  | external _ => exact le_rfl
  | tick hle _ => exact hle

end Steps

/-- The clock goes back to the last `start_round`. -/
structure RoundClock (tr : List (World H × Action H)) (w : World H) : Prop where
  idle : lastStart tr = none → ¬ InState w .Active
  running : ∀ t d, lastStart tr = some (t, d) → t.now ≤ w.now ∧
    w.storage.roundStart = some t.now ∧ w.storage.roundDuration = some d ∧
    ∃ config config₀, w.storage.config = some config ∧ t.storage.config = some config₀ ∧
      config.commitDeadline = satAddU64 t.now d ∧
      (config.state = .Active → config.roundCount = config₀.roundCount)

theorem RoundClock.loadRoundDuration {tr : List (World H × Action H)} {t w : World H} {d : ℕ}
    (h : RoundClock tr w) (hlast : lastStart tr = some (t, d)) :
    w.storage.loadRoundDuration = d := by
  obtain ⟨-, -, hdur, -⟩ := h.running t d hlast
  unfold ArenaStorage.loadRoundDuration
  rw [hdur]
  rfl

theorem RoundClock.step {env : Env H} {tr : List (World H × Action H)} {w w' : World H}
    {a : Action H} (h : RoundClock tr w) (hw : WellFormed w) (hs : Step env w a w') :
    RoundClock ((w, a) :: tr) w' := by
  cases ha : a.started with
  | some d =>
    obtain ⟨config, config', hc, hc', hcount, hdl, hrs, hrd, hnow⟩ := hs.of_start ha
    refine ⟨fun hnone => ?_, fun t d' hlast => ?_⟩
    · rw [lastStart_cons_of_start ha] at hnone
      cases hnone
    · rw [lastStart_cons_of_start ha] at hlast
      cases hlast
      exact ⟨hnow.ge, hrs, hrd, config', config, hc', hc, hdl, fun _ => hcount⟩
  | none =>
    refine ⟨fun hnone hact => ?_, fun t d' hlast => ?_⟩
    · rw [lastStart_cons ha] at hnone
      exact h.idle hnone (hs.active_of_active hw ha hact)
    · rw [lastStart_cons ha] at hlast
      obtain ⟨hle, hrs, hrd, config, config₀, hc, hc₀, hdl, hcount⟩ := h.running t d' hlast
      obtain ⟨hrs', hrd', config', hc', hdl', hact⟩ := hs.clock hw ha config hc
      exact ⟨hle.trans (hs.now_le hw), hrs'.trans hrs, hrd'.trans hrd, config', config₀, hc', hc₀,
        hdl'.trans hdl, fun hact' => (hact hact').2.trans (hcount (hact hact').1)⟩

theorem roundClock_of_run {env : Env H} {outside : H} {now : ℕ} {tr : List (World H × Action H)}
    {w : World H} (hrun : Run (Step env) (World.fresh outside now) tr w) : RoundClock tr w := by
  refine hrun.history ⟨fun _ hact => ?_, fun _ _ h => nomatch h⟩ fun _ _ _ _ hr hi hs =>
    hi.step (wellFormed_of_run hr) hs
  obtain ⟨_, hc, -⟩ := hact
  cases hc

end InverseArena.Arena
