import InverseArena.Arena.Organiser

/-!
# Administering the arena

What the administrative calls write, call by call, and that nothing else writes it: the
admin and the admin-to-be, the pause, the bans, and the pending upgrade.

Results:
* `upgrade_timelocked`: whatever `execute_upgrade` installs has been proposed by the admin of
  the time, a day before, and by nobody since.
* `paused_frozen`: what can happen to a paused arena.
-/

namespace InverseArena.Arena

open Host MachineInt Transition

variable {H : Type}

/-! ## What the administrative calls write -/

/-- The part of the storage that the administrative calls write. -/
structure Rules where
  admin : Option Address
  paused : Option Bool
  pendingAdmin : Option PendingAdmin
  pendingUpgrade : Option PendingUpgrade
  banned : Address → Option Bool
  minPlayers : Option ℕ
  maxPlayers : Option ℕ
  leaderboardLimit : Option ℕ

/-- The rules of the moment. -/
def ArenaStorage.rules (s : ArenaStorage) : Rules where
  admin := s.config.map (·.admin)
  paused := s.config.map (·.paused)
  pendingAdmin := s.pendingAdmin
  pendingUpgrade := s.pendingUpgrade
  banned := s.bannedPlayer
  minPlayers := s.minPlayers
  maxPlayers := s.maxPlayers
  leaderboardLimit := s.leaderboardLimit

/-- What an administrative call writes, of an arena with this configuration. -/
inductive Administers (auths : List Address) (config : ArenaConfig) (now : ℕ) (r : Rules) :
    Call → Rules → Prop
  | upgradeProposed {hash : BytesN 32} : config.admin ∈ auths →
      Administers auths config now r (.proposeUpgrade hash)
        { r with pendingUpgrade := some ⟨hash, now⟩ }
  | limitsConfigured {lo hi : ℕ} : config.admin ∈ auths → ValidLimits lo hi →
      Administers auths config now r (.configurePlayerLimits lo hi)
        { r with minPlayers := some lo, maxPlayers := some hi }
  | banned {player : Address} : config.admin ∈ auths →
      Administers auths config now r (.banPlayer player)
        { r with banned := Function.update r.banned player (some true) }
  | unbanned {player : Address} : config.admin ∈ auths →
      Administers auths config now r (.unbanPlayer player)
        { r with banned := Function.update r.banned player (some false) }
  | proposed {newAdmin : Address} : config.admin ∈ auths → config.paused = false →
      Administers auths config now r (.proposeAdmin newAdmin)
        { r with pendingAdmin := some ⟨newAdmin⟩ }
  | changed {newAdmin : Address} : config.admin ∈ auths → config.paused = false →
      Administers auths config now r (.changeAdmin newAdmin)
        { r with pendingAdmin := some ⟨newAdmin⟩ }
  | accepted {pending : PendingAdmin} : r.pendingAdmin = some pending →
      pending.newAdmin ∈ auths → config.paused = false →
      Administers auths config now r .acceptAdmin
        { r with admin := some pending.newAdmin, pendingAdmin := none }
  | paused {reason : String} : config.admin ∈ auths →
      Administers auths config now r (.pause reason) { r with paused := some true }
  | unpaused : config.admin ∈ auths →
      Administers auths config now r .unpause { r with paused := some false }
  | limitConfigured {limit : ℕ} : config.admin ∈ auths →
      Administers auths config now r (.configureLeaderboardLimit limit)
        { r with leaderboardLimit := some limit }

section Calls

variable {env : Env H} {auths : List Address} {w w' : World H} {c : Call} {config : ArenaConfig}

/-- An administrative call writes what `Administers` says. -/
theorem administers_of_exec (hadm : c.isAdministrative = true)
    (h : exec env auths c w = .ok w') : ∃ config, w.storage.config = some config ∧
      Administers auths config w.now w.storage.rules c w'.storage.rules := by
  cases c with
  | proposeUpgrade hash =>
    simp only [exec, proposeUpgrade, ArenaStorage.loadConfig, Fallible.bind_eq_ok,
      requireAuth_eq_ok, okOr_eq_ok, Fallible.pure_eq_ok, exists_const] at h
    obtain ⟨config, hc, ha, rfl⟩ := h
    exact ⟨config, hc, .upgradeProposed ha⟩
  | configurePlayerLimits lo hi =>
    simp only [exec, configurePlayerLimits, validatePlayerLimits, ArenaStorage.loadConfig,
      Fallible.bind_eq_ok, requireAuth_eq_ok, check_eq_ok, okOr_eq_ok, Fallible.pure_eq_ok,
      exists_const, not_or, not_lt, gt_iff_lt] at h
    obtain ⟨config, hc, ha, ⟨⟨hmin, hle⟩, hmax⟩, rfl⟩ := h
    exact ⟨config, hc, .limitsConfigured ha ⟨hmin, hle, hmax⟩⟩
  | banPlayer player =>
    simp only [exec, banPlayer, ArenaStorage.loadConfig, Fallible.bind_eq_ok, requireAuth_eq_ok,
      okOr_eq_ok, Fallible.pure_eq_ok, exists_const] at h
    obtain ⟨config, hc, ha, rfl⟩ := h
    exact ⟨config, hc, .banned ha⟩
  | unbanPlayer player =>
    simp only [exec, unbanPlayer, ArenaStorage.loadConfig, Fallible.bind_eq_ok, requireAuth_eq_ok,
      okOr_eq_ok, Fallible.pure_eq_ok, exists_const] at h
    obtain ⟨config, hc, ha, rfl⟩ := h
    exact ⟨config, hc, .unbanned ha⟩
  | proposeAdmin admin =>
    simp only [exec, proposeAdmin, ArenaStorage.loadConfig, Fallible.bind_eq_ok,
      requireAuth_eq_ok, okOr_eq_ok, requireNotPaused_eq_ok, Fallible.pure_eq_ok,
      exists_const] at h
    obtain ⟨config, hc, ha, hp, rfl⟩ := h
    exact ⟨config, hc, .proposed ha hp⟩
  | changeAdmin admin =>
    simp only [exec, changeAdmin, proposeAdmin, ArenaStorage.loadConfig, Fallible.bind_eq_ok,
      requireAuth_eq_ok, okOr_eq_ok, requireNotPaused_eq_ok, Fallible.pure_eq_ok,
      exists_const] at h
    obtain ⟨config, hc, ha, hp, rfl⟩ := h
    exact ⟨config, hc, .changed ha hp⟩
  | acceptAdmin =>
    simp only [exec, acceptAdmin, ArenaStorage.loadConfig, Fallible.bind_eq_ok, requireAuth_eq_ok,
      okOr_eq_ok, requireNotPaused_eq_ok, Fallible.pure_eq_ok, exists_const] at h
    obtain ⟨pending, hpending, ha, config, hc, hp, rfl⟩ := h
    refine ⟨config, hc, ?_⟩
    convert Administers.accepted (r := w.storage.rules) hpending ha hp using 1
    simp only [ArenaStorage.rules, World.publish, ArenaStorage.deletePendingAdmin,
      ArenaStorage.saveConfig, hc, Option.map_some]
  | pause reason =>
    simp only [exec, pause, ArenaStorage.loadConfig, Fallible.bind_eq_ok, requireAuth_eq_ok,
      okOr_eq_ok, Fallible.pure_eq_ok, exists_const] at h
    obtain ⟨config, hc, ha, rfl⟩ := h
    refine ⟨config, hc, ?_⟩
    convert Administers.paused (r := w.storage.rules) ha using 1
    simp only [ArenaStorage.rules, World.publish, ArenaStorage.saveConfig, hc, Option.map_some]
  | unpause =>
    simp only [exec, unpause, ArenaStorage.loadConfig, Fallible.bind_eq_ok, requireAuth_eq_ok,
      okOr_eq_ok, Fallible.pure_eq_ok, exists_const] at h
    obtain ⟨config, hc, ha, rfl⟩ := h
    refine ⟨config, hc, ?_⟩
    convert Administers.unpaused (r := w.storage.rules) ha using 1
    simp only [ArenaStorage.rules, World.publish, ArenaStorage.saveConfig, hc, Option.map_some]
  | configureLeaderboardLimit limit =>
    simp only [exec, configureLeaderboardLimit, ArenaStorage.loadConfig, Fallible.bind_eq_ok,
      requireAuth_eq_ok, okOr_eq_ok, Fallible.pure_eq_ok, exists_const] at h
    obtain ⟨config, hc, ha, rfl⟩ := h
    exact ⟨config, hc, .limitConfigured ha⟩
  | _ => cases hadm

/-- The calls of the game leave the rules alone. -/
theorem rules_of_game (h : exec env auths c w = .ok w') (hw : WellFormed w)
    (hadm : c.isAdministrative = false) (hc : w.storage.config = some config) :
    w'.storage.rules = w.storage.rules := by
  cases exec_effect h with
  | initialized ha hnone hfee hlim hbal => rw [hnone] at hc; cases hc
  | administered hadm' hc₁ hc' hlim => rw [hadm] at hadm'; cases hadm'
  | roundResolved hguard hc₁ ha hp hs hstart hnow =>
    obtain rfl := Option.some.inj (hc.symm.trans hc₁)
    obtain ⟨bps, eliminated, events, heq⟩ := @settleRound_eq H env w config hw.nodup
    rw [heq]
    simp only [ArenaStorage.rules, hc, Option.map_some]
  | committed | revealed | forceCancelledAgain | refunded => rfl
  | joined _ _ hc₁ | roundStarted hc₁ | cancelled _ hc₁ | expired _ hc₁ | claimed _ _ hc₁
  | forceCancelled _ hc₁ =>
    obtain rfl := Option.some.inj (hc.symm.trans hc₁)
    simp only [ArenaStorage.rules, hc, Option.map_some]

/-- `initialize` leaves an arena that nobody administers but its admin. -/
theorem rules_initialized {args : InitializeArgs}
    (h : exec env auths (.initializeArena args) w = .ok w') :
    args.admin ∈ auths ∧ w.storage.config = none ∧ w'.storage.rules = { w.storage.rules with
      admin := some args.admin, paused := some false
      minPlayers := some args.minPlayers, maxPlayers := some args.maxPlayers } := by
  cases exec_effect h with
  | initialized ha hnone hfee hlim hbal => exact ⟨ha, hnone, rfl⟩
  | administered hadm => cases hadm

end Calls

/-! ## Upgrades -/

/-- The last upgrade proposed in a history, with the time of the proposal. -/
def lastProposal (tr : List (World H × Action H)) : Option PendingUpgrade :=
  tr.findSome? fun e => match e.2 with
    | .call _ (.proposeUpgrade hash) => some ⟨hash, e.1.now⟩
    | _ => none

/-- The history has a proposal of `hash`, which the admin of that time authorized, and none
    after it. -/
def ProposedIn (tr : List (World H × Action H)) (hash : BytesN 32) (v : World H) : Prop :=
  ∃ newer auths older config, tr = newer ++ (v, .call auths (.proposeUpgrade hash)) :: older ∧
    v.storage.config = some config ∧ config.admin ∈ auths ∧
    ∀ e ∈ newer, ∀ auths' hash', e.2 ≠ .call auths' (.proposeUpgrade hash')

section Upgrades

variable {env : Env H} {auths : List Address} {w w' : World H} {hash : BytesN 32}
  {tr : List (World H × Action H)} {a : Action H} {outside : H} {now : ℕ}

theorem lastProposal_cons (hne : ∀ auths hash, a ≠ .call auths (.proposeUpgrade hash)) :
    lastProposal ((w, a) :: tr) = lastProposal tr := by
  unfold lastProposal
  rw [List.findSome?_cons]
  split
  · rename_i heq
    split at heq
    · rename_i hact
      exact absurd hact (hne _ _)
    · cases heq
  · rfl

/-- The pending upgrade is the last one proposed. -/
theorem pendingUpgrade_of_run (hrun : Run (Step env) (World.fresh outside now) tr w) :
    w.storage.pendingUpgrade = lastProposal tr := by
  refine hrun.history (I := fun tr w => w.storage.pendingUpgrade = lastProposal tr) rfl ?_
  intro tr w a w' hr ih hs
  cases hs with
  | external _ => exact ih.trans (lastProposal_cons (by simp)).symm
  | tick _ _ => exact ih.trans (lastProposal_cons (by simp)).symm
  | @call _ auths c hauths hexec =>
    by_cases hprop : ∃ hash, c = .proposeUpgrade hash
    · obtain ⟨hash, rfl⟩ := hprop
      obtain ⟨config, hc, hadm⟩ := administers_of_exec rfl hexec
      generalize hr' : w'.storage.rules = r' at hadm
      cases hadm with
      | upgradeProposed ha => exact congrArg Rules.pendingUpgrade hr'
    · have hskip : lastProposal ((w, .call auths c) :: tr) = lastProposal tr := by
        refine lastProposal_cons fun auths' hash heq => hprop ⟨hash, ?_⟩
        exact (Action.call.inj heq).2
      rw [hskip, ← ih]
      show w'.storage.rules.pendingUpgrade = w.storage.rules.pendingUpgrade
      cases hadm : c.isAdministrative with
      | true =>
        obtain ⟨config, hc, hwrites⟩ := administers_of_exec hadm hexec
        generalize w'.storage.rules = r' at hwrites
        cases hwrites with
        | upgradeProposed ha => exact absurd ⟨_, rfl⟩ hprop
        | _ => rfl
      | false =>
        cases hc : w.storage.config with
        | none =>
          obtain ⟨args, rfl, -⟩ := exec_opens hexec (wellFormed_of_run hr) hc
          rw [(rules_initialized hexec).2.2]
        | some config => rw [rules_of_game hexec (wellFormed_of_run hr) hadm hc]

/-- A proposal of the history was authorized by the admin of its time. -/
theorem proposedIn_of_last (hrun : Run (Step env) (World.fresh outside now) tr w)
    {pending : PendingUpgrade} (hlast : lastProposal tr = some pending) :
    ∃ v, ProposedIn tr pending.wasmHash v ∧ v.now = pending.proposedAt := by
  induction hrun with
  | nil => cases hlast
  | @snoc tr w a w' hr hs ih =>
    by_cases hprop : ∃ auths hash, a = .call auths (.proposeUpgrade hash)
    · obtain ⟨auths, hash, rfl⟩ := hprop
      obtain rfl : (⟨hash, w.now⟩ : PendingUpgrade) = pending := Option.some.inj hlast
      cases hs with
      | call hauths hexec =>
        obtain ⟨config, hc, hadm⟩ := administers_of_exec rfl hexec
        generalize w'.storage.rules = r' at hadm
        cases hadm with
        | upgradeProposed ha => exact ⟨w, ⟨[], auths, tr, config, rfl, hc, ha, by simp⟩, rfl⟩
    · have hne : ∀ auths hash, a ≠ .call auths (.proposeUpgrade hash) :=
        fun auths hash heq => hprop ⟨auths, hash, heq⟩
      obtain ⟨v, ⟨newer, auths, older, config, rfl, hc, ha, hnewer⟩, hnow⟩ :=
        ih ((lastProposal_cons hne).symm.trans hlast)
      refine ⟨v, ⟨(w, a) :: newer, auths, older, config, rfl, hc, ha, fun e he => ?_⟩, hnow⟩
      rcases List.mem_cons.mp he with rfl | he
      · exact hne
      · exact hnewer e he

/-- What is proposed, with no proposal after it, is the last one proposed. -/
theorem ProposedIn.last {v : World H} (h : ProposedIn tr hash v) :
    lastProposal tr = some ⟨hash, v.now⟩ := by
  obtain ⟨newer, auths, older, config, rfl, -, -, hnewer⟩ := h
  induction newer with
  | nil => rfl
  | cons e newer ih =>
    have hskip := @lastProposal_cons H e.1 (newer ++ (v, .call auths (.proposeUpgrade hash)) ::
      older) e.2 (hnewer e List.mem_cons_self)
    exact hskip.trans (ih fun e' he' => hnewer e' (List.mem_cons_of_mem _ he'))

/-- In every run, `execute_upgrade` installs a code exactly if the admin authorizes it, the
    code has been uploaded, and it is the last one proposed, by the admin of that time, a day
    ago or more; only at the end of the ledger's clock the day is not waited for. -/
theorem upgrade_timelocked (hrun : Run (Step env) (World.fresh outside now) tr w) :
    (∃ w', executeUpgrade env auths w = .ok w' ∧ w'.events = w.events ++ [.upgraded hash]) ↔
      (∃ config, w.storage.config = some config ∧ config.admin ∈ auths) ∧
        env.uploaded hash w.outside = true ∧
        ∃ v, ProposedIn tr hash v ∧ (v.now + 86400 ≤ w.now ∨ u64Max ≤ w.now) := by
  have hpending := pendingUpgrade_of_run hrun
  have hwait : ∀ proposedAt, ¬ w.now < satAddU64 proposedAt upgradeTimelockSeconds ↔
      proposedAt + 86400 ≤ w.now ∨ u64Max ≤ w.now := by
    intro proposedAt
    unfold satAddU64 upgradeTimelockSeconds
    omega
  simp only [executeUpgrade, ArenaStorage.loadConfig, ArenaStorage.loadPendingUpgrade,
    Fallible.bind_eq_ok, okOr_eq_ok, requireAuth_eq_ok, check_eq_ok,
    updateCurrentContractWasm_eq_ok, Fallible.pure_eq_ok, exists_const, hwait, hpending]
  constructor
  · rintro ⟨w', ⟨pending, hlast, config, hc, ha, hlate, huploaded, rfl⟩, hevents⟩
    obtain ⟨v, hin, hnow⟩ := proposedIn_of_last hrun hlast
    have hhash : pending.wasmHash = hash := by
      simpa [World.publish] using hevents
    subst hhash
    exact ⟨⟨config, hc, ha⟩, huploaded, v, hin, hnow ▸ hlate⟩
  · rintro ⟨⟨config, hc, ha⟩, huploaded, v, hin, hlate⟩
    exact ⟨_, ⟨⟨hash, v.now⟩, hin.last, config, hc, ha, hlate, huploaded, rfl⟩, rfl⟩

/-- An upgrade is proposed, and executed a day later. -/
theorem upgrade_timelocked_day : ∃ tr w w',
    Run (Step (reference false)) (World.fresh VaultState.sample 0) tr w ∧
      executeUpgrade (reference false) [⟨10⟩] w = .ok w' ∧
      ∃ v, ProposedIn tr (Vector.replicate 32 7) v ∧
        (v.now + 86400 ≤ w.now ∨ u64Max ≤ w.now) := by
  obtain ⟨tr, w, hrun, w', hexec, hevents⟩ : ∃ tr w,
      Run (Step (reference false)) (World.fresh VaultState.sample 0) tr w ∧
        ∃ w' ∈ (executeUpgrade (reference false) [⟨10⟩] w).toOption,
          w'.events = w.events ++ [.upgraded (Vector.replicate 32 7)] :=
    exists_run [.call [⟨10⟩] (.initializeArena (sampleArgs 100)),
      .call [⟨10⟩] (.proposeUpgrade (Vector.replicate 32 7)), .tick 86400] (by decide +kernel)
  have hok := Fallible.toOption_eq_some.mp hexec
  exact ⟨tr, w, w', hrun, hok, ((upgrade_timelocked hrun).mp ⟨w', hok, hevents⟩).2.2⟩

end Upgrades

/-! ## The pause -/

/-- A call of `unpause`. -/
def Action.isUnpause : Action H → Bool
  | .call _ .unpause => true
  | _ => false

/-- What can have happened to an arena since it was paused with this configuration: it may
    have been cancelled, and then players may have been refunded, once each. Its limits and
    bans, the proposed upgrade and the counters of pools may have changed, and nothing else
    of its storage. -/
structure Frozen (env : Env H) (config : ArenaConfig) (w w' : World H) : Prop where
  kept : w'.storage.config = some config ∨ (config.state = .Open ∨ config.state = .Active) ∧
    w'.storage.config = some { config with state := .Cancelled }
  game : w'.storage = { w.storage with
    config := w'.storage.config
    bannedPlayer := w'.storage.bannedPlayer
    minPlayers := w'.storage.minPlayers
    maxPlayers := w'.storage.maxPlayers
    leaderboardLimit := w'.storage.leaderboardLimit
    pendingUpgrade := w'.storage.pendingUpgrade
    creatorActivePools := w'.storage.creatorActivePools
    refundClaimed := w'.storage.refundClaimed
    reentrancyGuard := w'.storage.reentrancyGuard }
  refunds : ∃ players, players.Nodup ∧
    w'.transfers = w.transfers ++ payments env config.stakeToken config.entryFee players ∧
    (players ≠ [] → InState w' .Cancelled) ∧
    (∀ p ∈ players, (w.storage.player p).isSome = true ∧ w.storage.isRefundClaimed p = false) ∧
    ∀ p, w'.storage.isRefundClaimed p = true ↔ w.storage.isRefundClaimed p = true ∨ p ∈ players

section Pause

variable {env : Env H} {auths : List Address} {w w' u : World H} {c : Call}
  {config config' : ArenaConfig} {a : Action H} {tr : List (World H × Action H)}

theorem Frozen.refl (hc : w.storage.config = some config) : Frozen env config w w where
  kept := .inl hc
  game := rfl
  refunds := ⟨[], List.nodup_nil, by simp [payments], by simp, by simp, by simp⟩

/-- The configuration of a frozen arena. -/
theorem Frozen.exists_config (h : Frozen env config w w') : ∃ state,
    w'.storage.config = some { config with state := state } ∧
      (state = config.state ∨ state = .Cancelled) := by
  rcases h.kept with hc | ⟨-, hc⟩
  · exact ⟨config.state, hc, .inl rfl⟩
  · exact ⟨.Cancelled, hc, .inr rfl⟩

/-- Steps that move no money and touch no player keep the arena frozen. -/
theorem Frozen.quiet (h : Frozen env config w w') (hc : u.storage.config = w'.storage.config)
    (hgame : u.storage = { w'.storage with
      config := u.storage.config
      bannedPlayer := u.storage.bannedPlayer
      minPlayers := u.storage.minPlayers
      maxPlayers := u.storage.maxPlayers
      leaderboardLimit := u.storage.leaderboardLimit
      pendingUpgrade := u.storage.pendingUpgrade
      reentrancyGuard := u.storage.reentrancyGuard })
    (htransfers : u.transfers = w'.transfers) : Frozen env config w u where
  kept := hc ▸ h.kept
  game := by
    rw [hgame, h.game]
  refunds := by
    obtain ⟨players, hnodup, hpaid, hstate, hknown, hclaimed⟩ := h.refunds
    have hsame : u.storage.refundClaimed = w'.storage.refundClaimed := by
      rw [hgame]
    refine ⟨players, hnodup, htransfers.trans hpaid, fun hne => ?_, hknown, fun p => ?_⟩
    · obtain ⟨c', hc', hs⟩ := hstate hne
      exact ⟨c', hc.trans hc', hs⟩
    · rw [← hclaimed p]
      unfold ArenaStorage.isRefundClaimed
      rw [hsame]

/-- While the arena is paused, the administrative calls other than `unpause` leave its
    configuration and the admin-to-be as they are. -/
theorem administrative_paused (hadm : c.isAdministrative = true)
    (h : exec env auths c w = .ok w') (hc : w.storage.config = some config)
    (hp : config.paused = true) (hne : c ≠ .unpause) :
    w'.storage.config = some config ∧ w'.storage.pendingAdmin = w.storage.pendingAdmin := by
  obtain ⟨config₁, hc₁, hwrites⟩ := administers_of_exec hadm h
  obtain rfl := Option.some.inj (hc.symm.trans hc₁)
  have hrules : w'.storage.rules.admin = some config.admin ∧
      w'.storage.rules.paused = some true ∧
      w'.storage.rules.pendingAdmin = w.storage.rules.pendingAdmin := by
    have hadmin : w.storage.rules.admin = some config.admin := congrArg (Option.map _) hc
    have hpaused : w.storage.rules.paused = some true := by
      rw [← hp]
      exact congrArg (Option.map _) hc
    generalize w'.storage.rules = r' at hwrites
    cases hwrites with
    | proposed _ hfree | changed _ hfree | accepted _ _ hfree =>
      rw [hp] at hfree
      cases hfree
    | unpaused _ => exact absurd rfl hne
    | paused _ => exact ⟨hadmin, rfl, rfl⟩
    | upgradeProposed _ | limitsConfigured _ _ | banned _ | unbanned _ | limitConfigured _ =>
      exact ⟨hadmin, hpaused, rfl⟩
  cases administrative_effect hadm h with
  | administered _ hc₂ hc' _ _ =>
    obtain rfl := Option.some.inj (hc.symm.trans hc₂)
    subst hc'
    obtain ⟨hadmin, hpaused, hpending⟩ := hrules
    refine ⟨?_, hpending⟩
    obtain rfl := Option.some.inj hadmin
    obtain rfl := Option.some.inj hpaused
    cases config
    cases hp
    rfl
  | _ => cases hadm

/-- One step of a frozen arena that nobody unpauses. -/
theorem Frozen.step (h : Frozen env config w w') (hp : config.paused = true)
    (hs : Step env w' a u) (hne : ∀ auths, a ≠ .call auths .unpause) : Frozen env config w u := by
  obtain ⟨state, hc, hstate⟩ := h.exists_config
  have hpaused : ∀ config', w'.storage.config = some config' → config'.paused = true := by
    intro config' hc'
    obtain rfl := Option.some.inj (hc.symm.trans hc')
    exact hp
  cases hs with
  | external _ => exact h.quiet rfl rfl rfl
  | tick _ _ => exact h.quiet rfl rfl rfl
  | @call _ auths c hauths hexec =>
    cases hadm : c.isAdministrative with
    | true =>
      obtain ⟨hkept, hpending⟩ := administrative_paused hadm hexec hc hp
        fun heq => hne auths (congrArg (Action.call auths) heq)
      cases administrative_effect hadm hexec with
      | administered _ _ _ _ _ =>
        refine h.quiet (hkept.trans hc.symm) ?_ rfl
        dsimp only at hpending ⊢
        rw [hpending]
      | _ => cases hadm
    | false =>
      cases exec_effect hexec with
      | initialized _ hnone _ _ _ =>
        rw [hnone] at hc
        cases hc
      | administered hadm' _ _ _ _ =>
        rw [hadm] at hadm'
        cases hadm'
      | joined _ _ hc' hfree | committed _ hc' hfree | revealed _ hc' hfree
      | roundStarted hc' _ hfree | roundResolved _ hc' _ hfree | cancelled _ hc' _ hfree
      | expired _ hc' hfree | claimed _ _ hc' hfree =>
        rw [hpaused _ hc'] at hfree
        cases hfree
      | forceCancelledAgain _ hc' _ _ => exact h.quiet rfl rfl rfl
      | forceCancelled _ hc' _ hopen =>
        obtain rfl := Option.some.inj (hc.symm.trans hc')
        have hlive : config.state = .Open ∨ config.state = .Active := by
          rcases hstate with rfl | rfl
          · exact hopen
          · simp at hopen
        obtain ⟨players, hnodup, hpaid, hdone, hknown, hclaimed⟩ := h.refunds
        exact
          { kept := .inr ⟨hlive, rfl⟩
            game := by
              dsimp only
              rw [h.game]
            refunds := ⟨players, hnodup, hpaid, fun _ => ⟨_, rfl, rfl⟩, hknown, hclaimed⟩ }
      | @refunded player config' outside _ hc' hs' hfresh hknown' _ =>
        obtain rfl := Option.some.inj (hc.symm.trans hc')
        obtain ⟨players, hnodup, hpaid, -, hknown, hclaimed⟩ := h.refunds
        have hsame : w'.storage.player = w.storage.player := by
          rw [h.game]
        have hout : ¬ (w.storage.isRefundClaimed player = true ∨ player ∈ players) := by
          rw [← hclaimed player, hfresh]
          simp
        rw [not_or] at hout
        exact
          { kept := h.kept
            game := by
              dsimp only
              rw [h.game]
            refunds := by
              refine ⟨players ++ [player], ?_, ?_, fun _ => ⟨_, hc, hs'⟩, fun p hmem => ?_,
                fun p => ?_⟩
              · exact hnodup.append (List.nodup_singleton _) (by simpa using hout.2)
              · show w'.transfers ++ _ = _
                rw [hpaid]
                simp [payments]
              · rcases List.mem_append.mp hmem with hmem | hmem
                · exact hknown p hmem
                · obtain rfl := List.mem_singleton.mp hmem
                  exact ⟨hsame ▸ hknown', by simpa using hout.1⟩
              · show (Function.update w'.storage.refundClaimed player (some true) p).getD false =
                  true ↔ _
                by_cases hpl : p = player
                · subst hpl
                  simp
                · rw [Function.update_of_ne hpl, List.mem_append, List.mem_singleton, or_iff_left hpl]
                  exact hclaimed p }

/-- While an arena is paused, whatever happens, nobody joins, commits, reveals or is
    eliminated, no round starts or ends, no prize is paid and the admin stays; the arena can
    only be cancelled and its players refunded, once each. -/
theorem paused_frozen (hc : w.storage.config = some config) (hp : config.paused = true)
    (hrun : Run (Step env) w tr w') (hne : ∀ e ∈ tr, ∀ auths, e.2 ≠ .call auths .unpause) :
    Frozen env config w w' := by
  induction hrun with
  | nil => exact .refl hc
  | snoc _ hs ih =>
    exact (ih fun e he => hne e (List.mem_cons_of_mem _ he)).step hp hs
      (hne _ List.mem_cons_self)

/-- A paused arena is cancelled, and player 11 refunded. -/
theorem paused_frozen_refund : ∃ tr w w' config, w.storage.config = some config ∧
    Run (Step (reference false)) w tr w' ∧ w'.storage.isRefundClaimed ⟨11⟩ = true ∧
      Frozen (reference false) config w w' := by
  obtain ⟨tr₀, w, -, hpaused⟩ : ∃ tr w,
      Run (Step (reference false)) (World.fresh VaultState.sample 0) tr w ∧
        ∃ config ∈ w.storage.config, config.paused = true ∧
          ∃ r ∈ replay (@perform _ (reference false) _)
              [.call [⟨10⟩] .forceCancelArena, .call [⟨11⟩] (.claimRefund ⟨11⟩)] [] w,
            r.2.storage.isRefundClaimed ⟨11⟩ = true ∧
              r.1.map (·.2.isUnpause) = [false, false] :=
    exists_run (sampleJoins 100 ++ [.call [⟨10⟩] (.pause "maint")]) (by decide +kernel)
  obtain ⟨config, hc, hp, hreplay⟩ := hpaused
  obtain ⟨tr, w', hrun, hclaimed, hquiet⟩ : ∃ tr w', Run (Step (reference false)) w tr w' ∧
      w'.storage.isRefundClaimed ⟨11⟩ = true ∧ tr.map (·.2.isUnpause) = [false, false] :=
    exists_run _ hreplay
  refine ⟨tr, w, w', config, hc, hrun, hclaimed, paused_frozen hc hp hrun fun e he auths heq => ?_⟩
  have hmem : e.2.isUnpause ∈ tr.map (·.2.isUnpause) := List.mem_map_of_mem he
  rw [hquiet, heq] at hmem
  simp [Action.isUnpause] at hmem

end Pause

end InverseArena.Arena
