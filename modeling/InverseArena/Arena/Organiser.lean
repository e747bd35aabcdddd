import InverseArena.Arena.Lifecycle
import InverseArena.Vault.Reference

/-!
# Changes of the organiser

The admin changes in two steps, `propose_admin` and `accept_admin`
(`contract/arena/src/lib.rs`, lines 766-812). `join_arena` keeps the admin of
the moment out of the game (line 268), and the counter of the creator's active
pools goes up for the admin who initializes the arena and down for the admin at
its end (lines 139, 424, 462, 665 and 877); `accept_admin` looks at neither.

Results:
* `organiser_plays_iff`: the admin is a player iff the address that last
  accepted the role was one.
* `creator_pools_iff`: an ended arena is still counted for its creator iff
  somebody else was its admin when it ended.
* `player_becomes_admin`, `transferred_pool_stays`: runs in which this happens.
-/

namespace InverseArena.Arena

open Host MachineInt Transition

variable {H : Type}

/-! ## The admin and the players -/

/-- A call of `accept_admin`. -/
def Action.isAccept : Action H → Bool
  | .call _ .acceptAdmin => true
  | _ => false

/-- The world in which `accept_admin` was last called in the steps `tr`. -/
def lastAccept (tr : List (World H × Action H)) : Option (World H) :=
  (tr.find? fun e => e.2.isAccept).map (·.1)

/-- The proposed admin is a player. -/
def PlayerProposed (w : World H) : Prop :=
  ∃ pending ∈ w.storage.loadPendingAdmin, pending.newAdmin ∈ w.storage.loadAllPlayers

section Admin

variable {env : Env H} {auths : List Address} {w w' : World H} {c : Call} {config : ArenaConfig}
  {tr : List (World H × Action H)} {a : Action H}

theorem lastAccept_cons : lastAccept ((w, a) :: tr) =
    if a.isAccept = true then some w else lastAccept tr := by
  unfold lastAccept
  rw [List.find?_cons]
  cases a.isAccept with
  | true => rfl
  | false => rfl

/-- `accept_admin` installs the proposed admin, and leaves the players alone. -/
theorem acceptAdmin_config (h : exec env auths .acceptAdmin w = .ok w') :
    ∃ pending config, w.storage.loadPendingAdmin = some pending ∧
      w.storage.config = some config ∧
      w'.storage.config = some { config with admin := pending.newAdmin } ∧
      w'.storage.loadAllPlayers = w.storage.loadAllPlayers := by
  simp only [exec, acceptAdmin, ArenaStorage.loadConfig, Fallible.bind_eq_ok, okOr_eq_ok,
    Fallible.pure_eq_ok] at h
  obtain ⟨pending, hpending, _, -, config, hc, _, -, rfl⟩ := h
  exact ⟨pending, config, hpending, hc, rfl, rfl⟩

/-- No other administrative call changes the admin. -/
theorem administrative_admin (hadm : c.isAdministrative = true) (hne : c ≠ .acceptAdmin)
    (h : exec env auths c w = .ok w') (hc : w.storage.config = some config) :
    ∃ config', w'.storage.config = some config' ∧ config'.admin = config.admin := by
  cases c with
  | acceptAdmin => exact absurd rfl hne
  | proposeUpgrade _ | banPlayer _ | unbanPlayer _ | configureLeaderboardLimit _ =>
    simp only [exec, proposeUpgrade, banPlayer, unbanPlayer, configureLeaderboardLimit,
      Fallible.bind_eq_ok, Fallible.pure_eq_ok] at h
    obtain ⟨_, -, _, -, rfl⟩ := h
    exact ⟨config, hc, rfl⟩
  | configurePlayerLimits lo hi =>
    simp only [exec, configurePlayerLimits, Fallible.bind_eq_ok, Fallible.pure_eq_ok] at h
    obtain ⟨_, -, _, -, _, -, rfl⟩ := h
    exact ⟨config, hc, rfl⟩
  | proposeAdmin _ | changeAdmin _ =>
    simp only [exec, changeAdmin, proposeAdmin, Fallible.bind_eq_ok, Fallible.pure_eq_ok] at h
    obtain ⟨_, -, _, -, _, -, rfl⟩ := h
    exact ⟨config, hc, rfl⟩
  | pause _ | unpause =>
    simp only [exec, pause, unpause, ArenaStorage.loadConfig, Fallible.bind_eq_ok, okOr_eq_ok,
      Fallible.pure_eq_ok] at h
    obtain ⟨config', hc', _, -, rfl⟩ := h
    obtain rfl := Option.some.inj (hc.symm.trans hc')
    exact ⟨_, rfl, rfl⟩
  | _ => cases hadm

/-- A call other than `accept_admin` keeps the admin, and does not make a player
    of an admin who is none. -/
theorem exec_admin (h : exec env auths c w = .ok w') (hw : WellFormed w) (hne : c ≠ .acceptAdmin)
    (hc : w.storage.config = some config) :
    ∃ config', w'.storage.config = some config' ∧ config'.admin = config.admin ∧
      (config.admin ∈ w'.storage.loadAllPlayers ↔ config.admin ∈ w.storage.loadAllPlayers) := by
  cases exec_effect h with
  | initialized ha hnone hfee hlim hbal => rw [hnone] at hc; cases hc
  | administered hadm hc₁ hc' hlim =>
    obtain ⟨config', hconfig', hadmin⟩ := administrative_admin hadm hne h hc
    exact ⟨config', hconfig', hadmin, Iff.rfl⟩
  | @joined player _ _ _ hguard ha hc₁ hp hs hself hban hnone hmax htr hdep =>
    obtain rfl := Option.some.inj (hc.symm.trans hc₁)
    refine ⟨_, rfl, rfl, ?_⟩
    show config.admin ∈ w.storage.loadAllPlayers ++ [player] ↔ _
    rw [List.mem_append, List.mem_singleton]
    exact or_iff_left (Ne.symm hself)
  | committed ha hc₁ hp hs hnow hpl hpa => exact ⟨config, hc, rfl, Iff.rfl⟩
  | revealed ha hc₁ hp hpl hpa hchoice hnow hopen => exact ⟨config, hc, rfl, Iff.rfl⟩
  | roundStarted hc₁ ha hp hs hmin =>
    obtain rfl := Option.some.inj (hc.symm.trans hc₁)
    exact ⟨_, rfl, rfl, Iff.rfl⟩
  | roundResolved hguard hc₁ ha hp hs hstart hnow =>
    obtain rfl := Option.some.inj (hc.symm.trans hc₁)
    obtain ⟨bps, eliminated, events, heq⟩ := @settleRound_eq H env w config hw.nodup
    rw [heq]
    exact ⟨_, rfl, rfl, Iff.rfl⟩
  | cancelled hguard hc₁ ha hp hs hwd =>
    obtain rfl := Option.some.inj (hc.symm.trans hc₁)
    exact ⟨_, rfl, rfl, Iff.rfl⟩
  | expired hguard hc₁ hp hs hnow hwd hpay =>
    obtain rfl := Option.some.inj (hc.symm.trans hc₁)
    exact ⟨_, rfl, rfl, Iff.rfl⟩
  | claimed hguard ha hc₁ hp hs hclaimed hwin hwd htotal htr =>
    obtain rfl := Option.some.inj (hc.symm.trans hc₁)
    exact ⟨_, rfl, rfl, Iff.rfl⟩
  | forceCancelled hguard hc₁ ha hs =>
    obtain rfl := Option.some.inj (hc.symm.trans hc₁)
    exact ⟨_, rfl, rfl, Iff.rfl⟩
  | forceCancelledAgain hguard hc₁ ha hs => exact ⟨config, hc, rfl, Iff.rfl⟩
  | refunded ha hc₁ hs href hpl htr => exact ⟨config, hc, rfl, Iff.rfl⟩

/-- Only `initialize` works on an empty storage; it opens an arena without
    players, counted once for its admin. -/
theorem exec_opens (h : exec env auths c w = .ok w') (hw : WellFormed w)
    (hnone : w.storage.config = none) :
    ∃ args, c = .initializeArena args ∧ w'.storage.config = some args.config ∧
      w'.storage.loadAllPlayers = [] ∧
      ∀ p, w'.storage.loadCreatorActivePools p = if p = args.admin then 1 else 0 := by
  have hfresh := hw.blank hnone
  cases exec_effect h with
  | @initialized args _ _ ha hnone' hfee hlim hbal =>
    refine ⟨args, rfl, rfl, ?_, fun p => ?_⟩
    · show w.storage.loadAllPlayers = []
      rw [hfresh]
      rfl
    · show ((w.storage.incrementCreatorActivePools args.admin).creatorActivePools p).getD 0 = _
      rw [hfresh]
      show (Function.update (fun _ => none) args.admin (some 1) p).getD 0 = _
      by_cases hp : p = args.admin
      · subst hp
        simp
      · simp [hp]
  | _ => simp_all

/-- The admin is a player iff the admin-to-be was one when the role was last
    accepted. -/
structure AdminHistory (tr : List (World H × Action H)) (w : World H) : Prop where
  unopened : w.storage.config = none → lastAccept tr = none
  plays : ∀ config, w.storage.config = some config →
    (config.admin ∈ w.storage.loadAllPlayers ↔ ∃ t, lastAccept tr = some t ∧ PlayerProposed t)

theorem AdminHistory.call (h : AdminHistory tr w) (hw : WellFormed w)
    (hexec : exec env auths c w = .ok w') : AdminHistory ((w, .call auths c) :: tr) w' := by
  by_cases hacc : c = .acceptAdmin
  · subst hacc
    obtain ⟨pending, config, hpending, hc, hc', hplayers⟩ := acceptAdmin_config hexec
    have hlast : lastAccept ((w, .call auths .acceptAdmin) :: tr) = some w := rfl
    refine ⟨fun hnone => ?_, fun config' hconfig' => ?_⟩
    · rw [hc'] at hnone
      cases hnone
    · obtain rfl := Option.some.inj (hc'.symm.trans hconfig')
      rw [hlast, hplayers]
      constructor
      · intro hmem
        exact ⟨w, rfl, pending, hpending, hmem⟩
      · rintro ⟨t, ht, pending', hpending', hmem⟩
        obtain rfl := Option.some.inj ht
        obtain rfl := Option.some.inj (hpending.symm.trans hpending')
        exact hmem
  · have hlast : lastAccept ((w, .call auths c) :: tr) = lastAccept tr := by
      rw [lastAccept_cons, if_neg]
      intro ha
      unfold Action.isAccept at ha
      split at ha
      · rename_i heq
        cases heq
        exact hacc rfl
      · cases ha
    cases hc : w.storage.config with
    | none =>
      obtain ⟨args, -, hc', hempty, -⟩ := exec_opens hexec hw hc
      refine ⟨fun hnone => ?_, fun config'' hconfig'' => ?_⟩
      · rw [hc'] at hnone
        cases hnone
      · rw [hlast, h.unopened hc, hempty]
        simp
    | some config =>
      obtain ⟨config', hc', hadmin, hmem⟩ := exec_admin hexec hw hacc hc
      refine ⟨fun hnone => ?_, fun config'' hconfig'' => ?_⟩
      · rw [hc'] at hnone
        cases hnone
      · obtain rfl := Option.some.inj (hc'.symm.trans hconfig'')
        rw [hlast, hadmin, hmem]
        exact h.plays config hc

theorem adminHistory_of_run {outside : H} {now : ℕ}
    (hrun : Run (Step env) (World.fresh outside now) tr w) : AdminHistory tr w := by
  refine hrun.history ⟨fun _ => rfl, fun config hc => ?_⟩ fun tr t a u hr h hs => ?_
  · cases hc
  · cases hs with
    | call _ hexec => exact h.call (wellFormed_of_run hr) hexec
    | external _ => exact ⟨h.unopened, h.plays⟩
    | tick _ _ => exact ⟨h.unopened, h.plays⟩

end Admin

/-- In every reachable state the admin is not a player iff `accept_admin` was
    never called, or the proposed admin was not a player when it was last
    called. -/
theorem organiser_plays_iff {env : Env H} {outside : H} {now : ℕ}
    {tr : List (World H × Action H)} {w : World H} {config : ArenaConfig}
    (hrun : Run (Step env) (World.fresh outside now) tr w) (hc : w.storage.config = some config) :
    config.admin ∉ w.storage.loadAllPlayers ↔
      ∀ t, lastAccept tr = some t → ¬ PlayerProposed t := by
  rw [(adminHistory_of_run hrun).plays config hc]
  constructor
  · intro h t ht hp
    exact h ⟨t, ht, hp⟩
  · rintro h ⟨t, ht, hp⟩
    exact h t ht hp

/-- Without a change of admin the admin of the sample game is not a player. -/
theorem organiser_plays_iff_game : ∃ tr w config,
    Run (Step (reference false)) (World.fresh VaultState.sample 0) tr w ∧
      w.storage.config = some config ∧ config.admin ∉ w.storage.loadAllPlayers := by
  obtain ⟨tr, w, hrun, ⟨config, hc, -⟩, hlast⟩ : ∃ tr w,
      Run (Step (reference false)) (World.fresh VaultState.sample 0) tr w ∧ InState w .Active ∧
        (lastAccept tr).isNone = true :=
    exists_run (sampleGame 100) (by decide +kernel)
  refine ⟨tr, w, config, hrun, hc, (organiser_plays_iff hrun hc).mpr fun t ht => ?_⟩
  rw [ht] at hlast
  cases hlast

/-- Player 11 joins, is proposed as admin, and accepts. -/
theorem player_becomes_admin : ∃ tr w,
    Run (Step (reference false)) (World.fresh VaultState.sample 0) tr w ∧
      ∃ config ∈ w.storage.config, config.admin = ⟨11⟩ ∧ ⟨11⟩ ∈ w.storage.loadAllPlayers :=
  exists_run (sampleJoins 100 ++
    [.call [⟨10⟩] (.proposeAdmin ⟨11⟩), .call [⟨11⟩] .acceptAdmin]) (by decide +kernel)

/-! ## The creator's active pools -/

/-- The arena is open or active. -/
def Underway (w : World H) : Prop := InState w .Open ∨ InState w .Active

instance (w : World H) : Decidable (Underway w) := inferInstanceAs (Decidable (_ ∨ _))

/-- The address that initialized the arena in the steps `tr`. -/
def creator (tr : List (World H × Action H)) : Option Address :=
  tr.findSome? fun e => match e.2 with
    | .call _ (.initializeArena args) => some args.admin
    | _ => none

/-- The admin of an arena that is open or active. -/
def World.hostedBy (w : World H) : Option Address :=
  if Underway w then w.storage.config.map (·.admin) else none

/-- The admin when the arena was last open or active, in a run whose steps `tr`
    led to `w`. -/
def lastHost (tr : List (World H × Action H)) (w : World H) : Option Address :=
  (w :: tr.map (·.1)).findSome? World.hostedBy

/-- The arena counts as one active pool of `p` while it is open or active, and
    as none otherwise or for anybody else. -/
def CountedFor (p : Address) (w : World H) : Prop :=
  ∀ q, w.storage.loadCreatorActivePools q = if q = p ∧ Underway w then 1 else 0

section Pools

variable {env : Env H} {auths : List Address} {w w' : World H} {c : Call} {config : ArenaConfig}
  {tr : List (World H × Action H)} {a : Action H}

theorem underway_iff (hc : w.storage.config = some config) :
    Underway w ↔ config.state = .Open ∨ config.state = .Active := by
  have hin : ∀ state, InState w state ↔ config.state = state := by
    intro state
    constructor
    · intro h
      exact InState.unique ⟨config, hc, rfl⟩ h
    · intro h
      exact ⟨config, hc, h⟩
  unfold Underway
  rw [hin, hin]

theorem lastHost_of_underway (hc : w.storage.config = some config) (h : Underway w) :
    lastHost tr w = some config.admin := by
  have hhost : w.hostedBy = some config.admin := by
    unfold World.hostedBy
    rw [if_pos h, hc]
    rfl
  unfold lastHost
  rw [List.findSome?_cons, hhost]

theorem lastHost_cons (h : ¬ Underway w) : lastHost ((w', a) :: tr) w = lastHost tr w' := by
  have hhost : w.hostedBy = none := if_neg h
  unfold lastHost
  rw [List.findSome?_cons, hhost]
  rfl

/-- A call keeps the counters and does not end the arena, or it ends the arena
    and takes it off the counter of its admin. -/
theorem Effect.pools (h : Effect env auths w c w') (hw : WellFormed w)
    (hc : w.storage.config = some config) :
    ((Underway w' ↔ Underway w) ∧
      w'.storage.creatorActivePools = w.storage.creatorActivePools) ∨
    Underway w ∧ ¬ Underway w' ∧
      w'.storage.creatorActivePools = w.storage.poolsDecremented config.admin := by
  have hnot : ∀ {u : World H} {config' : ArenaConfig}, u.storage.config = some config' →
      config'.state ≠ .Open → config'.state ≠ .Active → ¬ Underway u := by
    intro u config' hc' h1 h2 hu
    rcases (underway_iff hc').mp hu with hs | hs
    · exact h1 hs
    · exact h2 hs
  cases h with
  | initialized ha hnone hfee hlim hbal => rw [hnone] at hc; cases hc
  | administered hadm hc₁ hc' hlim =>
    obtain rfl := Option.some.inj (hc.symm.trans hc₁)
    refine .inl ⟨?_, rfl⟩
    rw [underway_iff hc, underway_iff hc']
  | joined hguard ha hc₁ hp hs hban hnone hmax htr hdep =>
    obtain rfl := Option.some.inj (hc.symm.trans hc₁)
    refine .inl ⟨?_, rfl⟩
    rw [underway_iff hc, underway_iff rfl]
  | committed ha hc₁ hp hs hnow hpl hpa => exact .inl ⟨Iff.rfl, rfl⟩
  | revealed ha hc₁ hp hpl hpa hchoice hnow hopen => exact .inl ⟨Iff.rfl, rfl⟩
  | roundStarted hc₁ ha hp hs hmin =>
    obtain rfl := Option.some.inj (hc.symm.trans hc₁)
    refine .inl ⟨?_, rfl⟩
    rw [underway_iff hc, underway_iff rfl, hs]
    simp
  | roundResolved hguard hc₁ ha hp hs hstart hnow =>
    obtain rfl := Option.some.inj (hc.symm.trans hc₁)
    obtain ⟨bps, eliminated, events, heq⟩ := @settleRound_eq H env w config hw.nodup
    rw [heq]
    by_cases hle : (survivorsOf w.storage config.round).length ≤ 1
    · refine .inr ⟨(underway_iff hc).mpr (.inr hs), ?_, if_pos hle⟩
      exact hnot rfl (by simp [hle]) (by simp [hle])
    · refine .inl ⟨?_, if_neg hle⟩
      rw [underway_iff hc, underway_iff rfl, hs]
      simp [hle]
  | cancelled hguard hc₁ ha hp hs hwd =>
    obtain rfl := Option.some.inj (hc.symm.trans hc₁)
    exact .inr ⟨(underway_iff hc).mpr (.inl hs), hnot rfl (by simp) (by simp), rfl⟩
  | expired hguard hc₁ hp hs hnow hwd hpay =>
    obtain rfl := Option.some.inj (hc.symm.trans hc₁)
    exact .inr ⟨(underway_iff hc).mpr (.inr hs), hnot rfl (by simp) (by simp), rfl⟩
  | claimed hguard ha hc₁ hp hs hclaimed hwin hwd htotal htr =>
    obtain rfl := Option.some.inj (hc.symm.trans hc₁)
    refine .inl ⟨?_, rfl⟩
    rw [underway_iff hc, underway_iff rfl, hs]
    simp
  | forceCancelled hguard hc₁ ha hs =>
    obtain rfl := Option.some.inj (hc.symm.trans hc₁)
    exact .inr ⟨(underway_iff hc).mpr hs, hnot rfl (by simp) (by simp), rfl⟩
  | forceCancelledAgain hguard hc₁ ha hs => exact .inl ⟨Iff.rfl, rfl⟩
  | refunded ha hc₁ hs href hpl htr => exact .inl ⟨Iff.rfl, rfl⟩

/-- Taking the arena off the counter of `host`, when it is counted for `p`. -/
theorem poolsDecremented_counted {s : ArenaStorage} {p host : Address}
    (h : ∀ q, s.loadCreatorActivePools q = if q = p then 1 else 0) (q : Address) :
    (s.poolsDecremented host q).getD 0 = if q = p ∧ host ≠ p then 1 else 0 := by
  have hq := h q
  unfold ArenaStorage.poolsDecremented
  rw [h host]
  unfold ArenaStorage.loadCreatorActivePools at hq
  by_cases hhost : host = p
  · subst hhost
    by_cases hqh : q = host
    · subst hqh
      simp
    · rw [if_neg hqh] at hq
      simp [hqh, hq]
  · rw [if_neg hhost, if_neg (by decide), hq]
    simp [hhost]

/-- The arena is counted for its creator while it is open or active, and for
    good if it ended under another admin. -/
structure PoolHistory (tr : List (World H × Action H)) (w : World H) : Prop where
  unopened : w.storage.config = none → creator tr = none
  counted : ∀ config, w.storage.config = some config → ∃ p, creator tr = some p ∧
    ∀ q, w.storage.loadCreatorActivePools q =
      if q = p ∧ (Underway w ∨ lastHost tr w ≠ some p) then 1 else 0

theorem creator_cons (h : exec env auths c w = .ok w') (hc : w.storage.config = some config) :
    creator ((w, .call auths c) :: tr) = creator tr := by
  unfold creator
  rw [List.findSome?_cons_of_isNone]
  cases c with
  | initializeArena args =>
    cases exec_effect h with
    | initialized ha hnone hfee hlim hbal => rw [hnone] at hc; cases hc
    | administered hadm => cases hadm
  | _ => rfl

/-- A step that keeps the counters and does not end the arena. -/
theorem PoolHistory.frame (h : PoolHistory tr w)
    (hopened : w'.storage.config = none ↔ w.storage.config = none)
    (hcreator : creator ((w, a) :: tr) = creator tr) (hunder : Underway w' ↔ Underway w)
    (hpools : w'.storage.creatorActivePools = w.storage.creatorActivePools) :
    PoolHistory ((w, a) :: tr) w' := by
  refine ⟨fun hnone => hcreator.trans (h.unopened (hopened.mp hnone)), fun config' hc' => ?_⟩
  obtain ⟨config, hc⟩ : ∃ config, w.storage.config = some config := by
    rw [← Option.ne_none_iff_exists']
    intro hnone
    rw [hopened.mpr hnone] at hc'
    cases hc'
  obtain ⟨p, hp, hcount⟩ := h.counted config hc
  refine ⟨p, hcreator.trans hp, fun q => ?_⟩
  have hload : w'.storage.loadCreatorActivePools q = w.storage.loadCreatorActivePools q := by
    unfold ArenaStorage.loadCreatorActivePools
    rw [hpools]
  rw [hload, hcount q]
  by_cases hu : Underway w
  · simp only [hu, hunder.mpr hu, true_or]
  · have hu' : ¬ Underway w' := fun h => hu (hunder.mp h)
    rw [lastHost_cons hu']
    simp only [hu, hu', false_or]

theorem PoolHistory.call (h : PoolHistory tr w) (hw : WellFormed w)
    (hexec : exec env auths c w = .ok w') : PoolHistory ((w, .call auths c) :: tr) w' := by
  cases hc : w.storage.config with
  | none =>
    obtain ⟨args, rfl, hc', -, hcount⟩ := exec_opens hexec hw hc
    refine ⟨fun hnone => ?_, fun config' hconfig' => ⟨args.admin, rfl, fun q => ?_⟩⟩
    · rw [hc'] at hnone
      cases hnone
    · have hopen : Underway w' := (underway_iff hc').mpr (.inl rfl)
      rw [hcount q]
      simp [hopen]
  | some config =>
    obtain ⟨config', hc', -⟩ := (exec_effect hexec).transition hw hc
    have hcreator : creator ((w, .call auths c) :: tr) = creator tr := creator_cons hexec hc
    rcases (exec_effect hexec).pools hw hc with ⟨hiff, hpools⟩ | ⟨hbefore, hafter, hpools⟩
    · refine h.frame ?_ hcreator hiff hpools
      rw [hc, hc']
      simp
    · obtain ⟨p, hp, hcount⟩ := h.counted config hc
      have hall : ∀ q, w.storage.loadCreatorActivePools q = if q = p then 1 else 0 := by
        intro q
        rw [hcount q]
        simp [hbefore]
      refine ⟨fun hnone => ?_, fun _ _ => ⟨p, hcreator.trans hp, fun q => ?_⟩⟩
      · rw [hc'] at hnone
        cases hnone
      · rw [lastHost_cons hafter, lastHost_of_underway hc hbefore]
        show (w'.storage.creatorActivePools q).getD 0 = _
        rw [hpools, poolsDecremented_counted hall]
        simp [hafter]

theorem poolHistory_of_run {outside : H} {now : ℕ}
    (hrun : Run (Step env) (World.fresh outside now) tr w) : PoolHistory tr w := by
  refine hrun.history ⟨fun _ => rfl, fun config hc => ?_⟩ fun tr t a u hr h hs => ?_
  · cases hc
  · cases hs with
    | call _ hexec => exact h.call (wellFormed_of_run hr) hexec
    | external _ => exact h.frame Iff.rfl rfl Iff.rfl rfl
    | tick _ _ => exact h.frame Iff.rfl rfl Iff.rfl rfl

end Pools

/-- In every reachable arena: `CreatorActivePools` is 1 for the address that
    initialized it while it is open or active, and 0 for it afterwards and for
    everybody else always, iff the arena is open or active, or that address was
    the admin when it last was. -/
theorem creator_pools_iff {env : Env H} {outside : H} {now : ℕ}
    {tr : List (World H × Action H)} {w : World H} {config : ArenaConfig}
    (hrun : Run (Step env) (World.fresh outside now) tr w) (hc : w.storage.config = some config) :
    ∃ p, creator tr = some p ∧
      (CountedFor p w ↔ Underway w ∨ lastHost tr w = some p) := by
  obtain ⟨p, hp, hcount⟩ := (poolHistory_of_run hrun).counted config hc
  refine ⟨p, hp, fun h => ?_, fun h q => ?_⟩
  · by_contra hneither
    obtain ⟨hunder, hhost⟩ := not_or.mp hneither
    have hself := h p
    rw [hcount p] at hself
    simp [hunder, hhost] at hself
  · rw [hcount q]
    rcases h with hunder | hhost
    · simp [hunder]
    · simp [hhost]

/-- The sample game, cancelled by its creator. -/
theorem creator_pools_iff_game : ∃ tr w,
    Run (Step (reference false)) (World.fresh VaultState.sample 0) tr w ∧
      InState w .Cancelled ∧ CountedFor ⟨10⟩ w := by
  obtain ⟨tr, w, hrun, ⟨config, hc, hs⟩, hcreator, hhost⟩ : ∃ tr w,
      Run (Step (reference false)) (World.fresh VaultState.sample 0) tr w ∧
        InState w .Cancelled ∧ creator tr = some ⟨10⟩ ∧ lastHost tr w = some ⟨10⟩ :=
    exists_run (sampleJoins 100 ++ [.call [⟨10⟩] .cancelArena]) (by decide +kernel)
  obtain ⟨p, hp, hiff⟩ := creator_pools_iff hrun hc
  obtain rfl := Option.some.inj (hp.symm.trans hcreator)
  exact ⟨tr, w, hrun, ⟨config, hc, hs⟩, hiff.mpr (.inr hhost)⟩

/-- The creator hands the sample game over, and the new admin cancels it: it
    stays counted for the creator. -/
theorem transferred_pool_stays : ∃ tr w,
    Run (Step (reference false)) (World.fresh VaultState.sample 0) tr w ∧
      creator tr = some ⟨10⟩ ∧ InState w .Cancelled ∧
      w.storage.loadCreatorActivePools ⟨10⟩ = 1 ∧ ¬ CountedFor ⟨10⟩ w := by
  obtain ⟨tr, w, hrun, hcreator, hs, hcount⟩ : ∃ tr w,
      Run (Step (reference false)) (World.fresh VaultState.sample 0) tr w ∧
        creator tr = some ⟨10⟩ ∧ InState w .Cancelled ∧
        w.storage.loadCreatorActivePools ⟨10⟩ = 1 :=
    exists_run (sampleJoins 100 ++ [.call [⟨10⟩] (.proposeAdmin ⟨13⟩), .call [⟨13⟩] .acceptAdmin,
      .call [⟨13⟩] .cancelArena]) (by decide +kernel)
  refine ⟨tr, w, hrun, hcreator, hs, hcount, fun h => ?_⟩
  have hself := h ⟨10⟩
  have hover : ¬ Underway w := by
    rintro (hu | hu)
    · cases hu.unique hs
    · cases hu.unique hs
  rw [hcount, if_neg (fun hand => hover hand.2)] at hself
  cases hself

end InverseArena.Arena
