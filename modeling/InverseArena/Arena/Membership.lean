import InverseArena.Arena.Effects
import InverseArena.Library.Transition

/-!
# Who is in the arena

Results:
* `WellFormed.step`: the player list has no duplicates and at most 100
  entries, a player state is stored exactly for its members, the cached count
  is its length, and the entry fee is positive; no step breaks this.
* `wellFormed_of_run`: it holds in every state of every run.
* `authorized_of_run`: players and the admin are addresses that can authorize
  calls.
-/

namespace InverseArena.Arena

open Host MachineInt Transition

variable {H : Type}

/-- The invariant of the arena's storage that all other results build on. -/
structure WellFormed (w : World H) : Prop where
  guard : w.storage.reentrancyGuardEntered = false
  /-- Before `initialize` nothing is stored. -/
  blank : w.storage.config = none → w.storage = .fresh
  nodup : w.storage.loadAllPlayers.Nodup
  known : ∀ p, (w.storage.player p).isSome = true ↔ p ∈ w.storage.loadAllPlayers
  capped : w.storage.loadAllPlayers.length ≤ maxPlayersAllowed
  limit : ∀ config, w.storage.config = some config →
    ∃ m, w.storage.maxPlayers = some m ∧ m ≤ maxPlayersAllowed
  count : ∀ config, w.storage.config = some config →
    config.playerCount = w.storage.loadAllPlayers.length
  fee : ∀ config, w.storage.config = some config → 0 < config.entryFee

theorem wellFormed_fresh (outside : H) (now : ℕ) : WellFormed (World.fresh outside now) where
  guard := rfl
  blank := fun _ => rfl
  nodup := List.nodup_nil
  known := fun p => by simp [World.fresh, ArenaStorage.fresh, ArenaStorage.loadAllPlayers]
  capped := Nat.zero_le _
  limit := fun _ h => nomatch h
  count := fun _ h => nomatch h
  fee := fun _ h => nomatch h

section Steps

variable {env : Env H} {auths : List Address} {w w' : World H} {c : Call}

/-- A change that keeps the players, the count, the fee and valid limits. -/
theorem WellFormed.frame (hw : WellFormed w) {config config' : ArenaConfig}
    (hguard : w'.storage.reentrancyGuardEntered = false)
    (hplayers : w'.storage.players = w.storage.players)
    (hknown : ∀ p, (w'.storage.player p).isSome = (w.storage.player p).isSome)
    (hlimit : ∃ m, w'.storage.maxPlayers = some m ∧ m ≤ maxPlayersAllowed)
    (hc : w.storage.config = some config) (hc' : w'.storage.config = some config')
    (hcount : config'.playerCount = config.playerCount)
    (hfee : config'.entryFee = config.entryFee) : WellFormed w' := by
  have hall : w'.storage.loadAllPlayers = w.storage.loadAllPlayers := by
    unfold ArenaStorage.loadAllPlayers; rw [hplayers]
  exact {
    guard := hguard
    blank := fun h => by rw [hc'] at h; cases h
    nodup := by rw [hall]; exact hw.nodup
    known := fun p => by rw [hknown, hall]; exact hw.known p
    capped := by rw [hall]; exact hw.capped
    limit := fun _ _ => hlimit
    count := fun config'' h => by
      obtain rfl : config' = config'' := Option.some.inj (hc'.symm.trans h)
      rw [hcount, hall]
      exact hw.count config hc
    fee := fun config'' h => by
      obtain rfl : config' = config'' := Option.some.inj (hc'.symm.trans h)
      rw [hfee]
      exact hw.fee config hc }

/-- A round removes nobody. -/
theorem playersAfter_isSome (s : ArenaStorage) (round : ℕ)
    (hknown : ∀ p, (s.player p).isSome = true ↔ p ∈ s.loadAllPlayers) (p : Address) :
    (playersAfter s round p).isSome = (s.player p).isSome := by
  unfold playersAfter
  split_ifs with h
  · rw [(hknown p).mpr h.1]; rfl
  · rfl

theorem WellFormed.effect (hw : WellFormed w) (h : Effect env auths w c w') : WellFormed w' := by
  cases h with
  | initialized ha hnone hfee hlim hbal =>
    have hfresh := hw.blank hnone
    have hall : w.storage.loadAllPlayers = [] := by rw [hfresh]; rfl
    exact {
      guard := hw.guard
      blank := fun h => nomatch h
      nodup := hw.nodup
      known := hw.known
      capped := hw.capped
      limit := fun _ _ => ⟨_, rfl, hlim.2.2⟩
      count := fun config h => by
        cases h
        exact (congrArg List.length hall).symm
      fee := fun config h => by cases h; exact hfee }
  | administered hadm hc hc' hlim =>
    refine hw.frame hw.guard rfl (fun _ => rfl) ?_ hc hc' rfl rfl
    rcases hlim with ⟨-, hmax⟩ | ⟨lo, hi, -, hmax, hvalid⟩
    · obtain ⟨m, hm, hle⟩ := hw.limit _ hc
      exact ⟨m, hmax.trans hm, hle⟩
    · exact ⟨hi, hmax, hvalid.2.2⟩
  | @joined player config _ _ hguard ha hc hp hopen hne hban hnone hmax htr hdep =>
    have hnew : player ∉ w.storage.loadAllPlayers := by
      rw [← hw.known, hnone]; simp
    obtain ⟨m, hm, hle⟩ := hw.limit config hc
    have hroom : (w.storage.loadAllPlayers).length < m := by
      rw [← hw.count config hc]; exact hmax m hm
    exact {
      guard := rfl
      blank := fun h => nomatch h
      nodup := by
        change (w.storage.loadAllPlayers ++ [player]).Nodup
        rw [List.nodup_append_comm]
        exact List.nodup_cons.mpr ⟨hnew, hw.nodup⟩
      known := fun p => by
        change (Function.update w.storage.player player _ p).isSome = true ↔
          p ∈ w.storage.loadAllPlayers ++ [player]
        by_cases hpp : p = player
        · subst hpp; simp
        · rw [Function.update_of_ne hpp, hw.known]; simp [hpp]
      capped := by
        change (w.storage.loadAllPlayers ++ [player]).length ≤ _
        rw [List.length_append]
        exact le_trans hroom hle
      limit := fun _ _ => ⟨m, hm, hle⟩
      count := fun _ h => by cases h; rfl
      fee := fun _ h => by cases h; exact hw.fee config hc }
  | committed ha hc hp hactive hnow hs hsa =>
    exact hw.frame hw.guard rfl (fun _ => rfl) (hw.limit _ hc) hc hc rfl rfl
  | revealed ha hc hp hs hsa hchoice hnow hcom =>
    exact hw.frame hw.guard rfl (fun _ => rfl) (hw.limit _ hc) hc hc rfl rfl
  | roundStarted hc ha hp hopen hmin =>
    exact hw.frame hw.guard rfl (fun _ => rfl) (hw.limit _ hc) hc rfl rfl rfl
  | @roundResolved config _ hguard hc ha hp hactive hstart hnow =>
    obtain ⟨bps, eliminated, events, heq⟩ := @settleRound_eq H env w config hw.nodup
    rw [heq]
    exact hw.frame rfl rfl (playersAfter_isSome _ _ hw.known) (hw.limit _ hc) hc rfl rfl rfl
  | cancelled hguard hc ha hp hopen hwd =>
    exact hw.frame rfl rfl (fun _ => rfl) (hw.limit _ hc) hc rfl rfl rfl
  | expired hguard hc hp hactive hnow hwd hpay =>
    exact hw.frame rfl rfl (fun _ => rfl) (hw.limit _ hc) hc rfl rfl rfl
  | claimed hguard ha hc hp hfin hclaimed hwin hwd htotal htr =>
    exact hw.frame rfl rfl (fun _ => rfl) (hw.limit _ hc) hc rfl rfl rfl
  | forceCancelled hguard hc ha hstate =>
    exact hw.frame rfl rfl (fun _ => rfl) (hw.limit _ hc) hc rfl rfl rfl
  | forceCancelledAgain hguard hc ha hcan =>
    exact hw.frame rfl rfl (fun _ => rfl) (hw.limit _ hc) hc hc rfl rfl
  | refunded ha hc hcan href hpl htr =>
    exact hw.frame hw.guard rfl (fun _ => rfl) (hw.limit _ hc) hc hc rfl rfl

/-- A change of the surroundings or of the time only. -/
theorem WellFormed.same (hw : WellFormed w) (h : w'.storage = w.storage) : WellFormed w' := by
  obtain ⟨h1, h2, h3, h4, h5, h6, h7, h8⟩ := hw
  rw [← h] at h1 h2 h3 h4 h5 h6 h7 h8
  exact ⟨h1, h2, h3, h4, h5, h6, h7, h8⟩

theorem WellFormed.step {a : Action H} (hw : WellFormed w) (h : Step env w a w') :
    WellFormed w' := by
  cases h with
  | call _ hexec => exact hw.effect (exec_effect hexec)
  | external _ => exact hw.same rfl
  | tick _ _ => exact hw.same rfl

end Steps

/-- Every state of every run is well formed. -/
theorem wellFormed_of_run {env : Env H} {outside : H} {now : ℕ} {tr : List (World H × Action H)}
    {w : World H} (hrun : Run (Step env) (World.fresh outside now) tr w) : WellFormed w :=
  hrun.invariant (fun _ _ _ hw h => hw.step h) (wellFormed_fresh outside now)

/-! ## Authority -/

/-- Players and the admin can authorize calls. -/
structure Authorized (env : Env H) (w : World H) : Prop where
  players : ∀ p ∈ w.storage.loadAllPlayers, env.mayAuthorize p
  admin : ∀ config, w.storage.config = some config → env.mayAuthorize config.admin

section Authority

variable {env : Env H} {auths : List Address} {w w' : World H} {c : Call}

theorem Authorized.frame (h : Authorized env w) {config config' : ArenaConfig}
    (hplayers : w'.storage.players = w.storage.players) (hc : w.storage.config = some config)
    (hc' : w'.storage.config = some config') (hadmin : config'.admin = config.admin) :
    Authorized env w' where
  players := by
    unfold ArenaStorage.loadAllPlayers
    rw [hplayers]
    exact h.players
  admin := fun config'' hc'' => by
    obtain rfl := Option.some.inj (hc'.symm.trans hc'')
    rw [hadmin]
    exact h.admin config hc

theorem Authorized.effect (h : Authorized env w) (hw : WellFormed w)
    (hauths : ∀ a ∈ auths, env.mayAuthorize a) (he : Effect env auths w c w') :
    Authorized env w' := by
  cases he with
  | initialized ha hnone hfee hlim hbal =>
    refine ⟨h.players, fun config hc => ?_⟩
    obtain rfl := Option.some.inj hc
    exact hauths _ ha
  | administered hadm hc hc' hlim hadmin =>
    refine ⟨h.players, fun config' hconfig => ?_⟩
    obtain rfl := Option.some.inj (hc'.symm.trans hconfig)
    have hold := h.admin _ hc
    rcases hadmin with rfl | hadmin
    · exact hold
    · exact hauths _ hadmin
  | joined hguard ha hc hp hs hne hban hnone hmax htr hdep =>
    refine ⟨fun p hmem => ?_, fun config hconfig => ?_⟩
    · replace hmem : p ∈ w.storage.loadAllPlayers ++ [_] := hmem
      rcases List.mem_append.mp hmem with hmem | hmem
      · exact h.players p hmem
      · rw [List.mem_singleton.mp hmem]
        exact hauths _ ha
    · have hold := h.admin _ hc
      obtain rfl := Option.some.inj hconfig
      exact hold
  | committed ha hc hp hs hnow hpl hpa => exact h.frame rfl hc hc rfl
  | revealed ha hc hp hpl hpa hchoice hnow hopen => exact h.frame rfl hc hc rfl
  | roundStarted hc ha hp hs hmin => exact h.frame rfl hc rfl rfl
  | roundResolved hguard hc ha hp hs hstart hnow =>
    obtain ⟨bps, eliminated, events, heq⟩ := @settleRound_eq H env w _ hw.nodup
    rw [heq]
    exact h.frame rfl hc rfl rfl
  | cancelled hguard hc ha hp hs hwd => exact h.frame rfl hc rfl rfl
  | expired hguard hc hp hs hnow hwd hpay => exact h.frame rfl hc rfl rfl
  | claimed hguard ha hc hp hs hclaimed hwin hwd htotal htr => exact h.frame rfl hc rfl rfl
  | forceCancelled hguard hc ha hs => exact h.frame rfl hc rfl rfl
  | forceCancelledAgain hguard hc ha hs => exact h.frame rfl hc hc rfl
  | refunded ha hc hs href hpl htr => exact h.frame rfl hc hc rfl

theorem Authorized.step {a : Action H} (h : Authorized env w) (hw : WellFormed w)
    (hs : Step env w a w') : Authorized env w' := by
  cases hs with
  | call hauths hexec => exact h.effect hw hauths (exec_effect hexec)
  | external _ => exact ⟨h.players, h.admin⟩
  | tick _ _ => exact ⟨h.players, h.admin⟩

theorem authorized_of_run {outside : H} {now : ℕ} {tr : List (World H × Action H)}
    (hrun : Run (Step env) (World.fresh outside now) tr w) : Authorized env w := by
  refine hrun.history (I := fun _ w => Authorized env w)
    ⟨fun p hp => ?_, fun config hc => ?_⟩ fun _ _ _ _ hr h hs => h.step (wellFormed_of_run hr) hs
  · cases hp
  · cases hc

end Authority

end InverseArena.Arena
