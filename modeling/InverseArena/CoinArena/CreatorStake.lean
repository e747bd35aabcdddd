import InverseArena.CoinArena.Replay

/-!
# The creator's stake

The stake is kept under `STAKE` and in `config.creator_stake`, without its
owner. Any address may withdraw it, `initialize` resets the second place only
and `cleanup_arena` the first one only.

Results:
* `StakeTracked.step`: what the storage knows of the outstanding deposit.
* `stakeSafe_iff`: only the depositor withdraws, once, at most what was
  deposited, and the two places agree, all along exactly the runs in which only
  the last depositor withdraws and no stake is outstanding at an `initialize`
  or a `cleanup_arena`.
-/

namespace InverseArena.CoinArena

open Host KeyedMap Transition

variable {G H : Type}

/-- A deposit of a creator's stake. -/
structure Deposit where
  creator : Address
  token : Address
  amount : ℤ

/-- The deposit that no withdrawal has followed yet. -/
def outstanding : List (World G H × Action H) → Option Deposit
  | [] => none
  | (t, .call _ (.depositCreatorStake creator amount)) :: _ =>
    t.storage.config.map fun config => ⟨creator, config.token, amount⟩
  | (_, .call _ (.withdrawCreatorStake _)) :: _ => none
  | _ :: tr => outstanding tr

/-- Who made the last deposit. -/
def lastDepositor : List (World G H × Action H) → Option Address
  | [] => none
  | (_, .call _ (.depositCreatorStake creator _)) :: _ => some creator
  | _ :: tr => lastDepositor tr

/-- The two places of the stake agree. -/
def StakesAgree (w : World G H) : Prop :=
  ∀ config, w.storage.config = some config → config.creatorStake = w.storage.loadCreatorStake

/-- The withdrawal by `creator` from `t` to `u`, after the steps `tr`, pays back
    no more than the outstanding deposit, which is the creator's own. -/
def PaysBack (env : Env G H) (tr : List (World G H × Action H)) (t u : World G H)
    (creator : Address) : Prop :=
  ∃ deposit paid, outstanding tr = some deposit ∧ deposit.creator = creator ∧
    u.transfers = t.transfers ++ [⟨deposit.token, env.here, creator, paid⟩] ∧
    paid ≤ deposit.amount

/-- The stake is safe after the last step. -/
def StakeSafe (env : Env G H) : List (World G H × Action H) → World G H → Prop
  | [], u => StakesAgree u
  | (t, a) :: tr, u => StakesAgree u ∧
    ∀ auths creator, a = .call auths (.withdrawCreatorStake creator) →
      creator ∈ auths ∧ PaysBack env tr t u creator

/-- Only the last depositor withdraws, and no stake is stored when the arena is
    initialized or cleaned up. -/
def StakeGuarded (tr : List (World G H × Action H)) (t : World G H) : Action H → Prop
  | .call _ (.withdrawCreatorStake creator) => lastDepositor tr = some creator
  | .call _ (.initializeArena _) => t.storage.loadCreatorStake = 0
  | .call _ .cleanupArena => t.storage.loadCreatorStake = 0
  | _ => True

/-! ## What a step means -/

/-- The calls that a stake depends on. -/
def Call.concernsStake : Call → Bool
  | .depositCreatorStake _ _ | .withdrawCreatorStake _ | .initializeArena _ | .cleanupArena => true
  | _ => false

/-- Two configurations with the same token and stake, the second one with a
    slash rate of at most 100% if the first one has such a rate. -/
structure SameStake (config config' : ArenaConfig) : Prop where
  token : config'.token = config.token
  stake : config'.creatorStake = config.creatorStake
  rate : config'.slashRateBps = config.slashRateBps ∨ config'.slashRateBps ≤ 10000

/-- What a step means for the stake. -/
inductive StakeTurn (env : Env G H) (t u : World G H) : Action H → Prop
  | quiet {a : Action H} : (∀ auths c, a = .call auths c → c.concernsStake = false) →
      u.storage.creatorStake = t.storage.creatorStake →
      Option.Rel SameStake t.storage.config u.storage.config → StakeTurn env t u a
  | initialized {auths : List Address} {args : InitializeArgs} {config' : ArenaConfig} :
      u.storage.creatorStake = t.storage.creatorStake → u.storage.config = some config' →
      config'.creatorStake = 0 → config'.slashRateBps = 5000 →
      StakeTurn env t u (.call auths (.initializeArena args))
  | cleaned {auths : List Address} {config : ArenaConfig} : t.storage.config = some config →
      u.storage.creatorStake = none → u.storage.config = t.storage.config →
      StakeTurn env t u (.call auths .cleanupArena)
  | staked {auths : List Address} {creator : Address} {amount : ℤ} {config : ArenaConfig} :
      0 < amount → t.storage.config = some config →
      u.storage.creatorStake = some amount →
      u.storage.config = some { config with creatorStake := amount } →
      StakeTurn env t u (.call auths (.depositCreatorStake creator amount))
  | unstaked {auths : List Address} {creator : Address} {config : ArenaConfig} :
      creator ∈ auths → 0 < t.storage.loadCreatorStake → t.storage.config = some config →
      u.storage.creatorStake = some 0 →
      u.storage.config = some { config with creatorStake := 0 } →
      u.transfers = t.transfers ++
        [⟨config.token, env.here, creator, config.withdrawable t.storage.loadCreatorStake⟩] →
      StakeTurn env t u (.call auths (.withdrawCreatorStake creator))

variable {env : Env G H} {auths : List Address} {t u : World G H} {a : Action H} {c : Call}
  {tr : List (World G H × Action H)}

theorem StakeTurn.of_call {config config' : ArenaConfig} (hcall : c.concernsStake = false)
    (hstake : u.storage.creatorStake = t.storage.creatorStake)
    (hc : t.storage.config = some config) (hc' : u.storage.config = some config')
    (hsame : SameStake config config') : StakeTurn env t u (.call auths c) :=
  .quiet (fun _ _ heq => by cases heq; exact hcall) hstake (by rw [hc, hc']; exact .some hsame)

theorem concernsStake_eq_false (h : c.isTuning || c.isGlobal || c.isResolution) :
    c.concernsStake = false := by
  cases c with
  | depositCreatorStake | withdrawCreatorStake | initializeArena | cleanupArena => cases h
  | _ => rfl

theorem Effect.stakeTurn (h : Effect env auths t c u) : StakeTurn env t u (.call auths c) := by
  have hrefl : ∀ config : ArenaConfig, SameStake config config := fun _ => ⟨rfl, rfl, .inl rfl⟩
  cases h with
  | initialized => exact .initialized rfl rfl rfl rfl
  | configured hc => exact .of_call rfl rfl hc rfl ⟨rfl, rfl, .inl rfl⟩
  | tuned ht hc _ hc' _ hrate =>
    exact .of_call (concernsStake_eq_false (by simp [ht])) rfl hc hc' ⟨rfl, rfl, hrate⟩
  | regulated hg =>
    refine .quiet (fun _ _ heq => ?_) rfl ?_
    · cases heq
      exact concernsStake_eq_false (by simp [hg])
    · exact rel_self hrefl _
  | started hc => exact .of_call rfl rfl hc rfl ⟨rfl, rfl, .inl rfl⟩
  | finished hc => exact .of_call rfl rfl hc rfl ⟨rfl, rfl, .inl rfl⟩
  | cancelled hc _ hby =>
    rcases hby with ⟨rfl, -⟩ | ⟨rfl, -⟩
    · exact .of_call rfl rfl hc rfl ⟨rfl, rfl, .inl rfl⟩
    · exact .of_call rfl rfl hc rfl ⟨rfl, rfl, .inl rfl⟩
  | proposed hc => exact .of_call rfl rfl hc hc (hrefl _)
  | accepted hc => exact .of_call rfl rfl hc rfl ⟨rfl, rfl, .inl rfl⟩
  | joined hc => exact .of_call rfl rfl hc rfl ⟨rfl, rfl, .inl rfl⟩
  | chosen hc => exact .of_call rfl rfl hc hc (hrefl _)
  | roundStarted hc => exact .of_call rfl rfl hc hc (hrefl _)
  | committed hc => exact .of_call rfl rfl hc hc (hrefl _)
  | revealed hc => exact .of_call rfl rfl hc hc (hrefl _)
  | resolved hres hc _ _ hc' =>
    exact .of_call (concernsStake_eq_false (by simp [hres])) rfl hc hc' ⟨rfl, rfl, .inl rfl⟩
  | claimed _ hc => exact .of_call rfl rfl hc hc (hrefl _)
  | cleaned hc =>
    rw [ArenaStorage.cleanupArenaData_eq]
    exact .cleaned hc rfl rfl
  | refunded _ hc => exact .of_call rfl rfl hc hc (hrefl _)
  | staked _ hpos _ hc => exact .staked hpos hc rfl rfl
  | unstaked ha hpos hc => exact .unstaked ha hpos hc rfl rfl rfl
  | yielded _ _ hc => exact .of_call rfl rfl hc hc (hrefl _)

theorem Step.stakeTurn (h : Step env t a u) : StakeTurn env t u a := by
  have hrefl : ∀ config : ArenaConfig, SameStake config config := fun _ => ⟨rfl, rfl, .inl rfl⟩
  cases h with
  | @call _ auths c hauths hexec => exact (exec_effect hexec).stakeTurn
  | external => exact .quiet nofun rfl (rel_self hrefl _)
  | tick => exact .quiet nofun rfl (rel_self hrefl _)

/-! ## What the storage knows -/

/-- After the steps `tr`, which meet the condition: the stored stake is the
    outstanding deposit, in the configured token. -/
structure StakeTracked (tr : List (World G H × Action H)) (w : World G H) : Prop where
  amount : w.storage.loadCreatorStake = ((outstanding tr).map Deposit.amount).getD 0
  positive : ∀ d, outstanding tr = some d → 0 < d.amount ∧ lastDepositor tr = some d.creator
  token : ∀ d, outstanding tr = some d → ∀ config, w.storage.config = some config →
    config.token = d.token
  agree : StakesAgree w
  rate : ∀ config, w.storage.config = some config → config.slashRateBps ≤ 10000

theorem StakeTracked.stake_pos {w : World G H} (h : StakeTracked tr w)
    (hpos : 0 < w.storage.loadCreatorStake) : ∃ d, outstanding tr = some d ∧
      d.amount = w.storage.loadCreatorStake := by
  rw [h.amount] at hpos ⊢
  cases hd : outstanding tr with
  | none => rw [hd] at hpos; exact absurd hpos (lt_irrefl _)
  | some d => exact ⟨d, rfl, rfl⟩

theorem StakeTracked.stake_zero {w : World G H} (h : StakeTracked tr w)
    (hzero : w.storage.loadCreatorStake = 0) : outstanding tr = none := by
  cases hd : outstanding tr with
  | none => rfl
  | some d =>
    have hpos := (h.positive d hd).1
    rw [h.amount, hd] at hzero
    exact absurd hzero hpos.ne'

theorem outstanding_of_quiet (h : ∀ auths c, a = .call auths c → c.concernsStake = false) :
    outstanding ((t, a) :: tr) = outstanding tr ∧ lastDepositor ((t, a) :: tr) = lastDepositor tr := by
  cases a with
  | call auths c =>
    cases c with
    | depositCreatorStake | withdrawCreatorStake => cases h _ _ rfl
    | _ => exact ⟨rfl, rfl⟩
  | _ => exact ⟨rfl, rfl⟩

theorem StakeTracked.step (h : StakeTracked tr t) (hturn : StakeTurn env t u a)
    (hg : StakeGuarded tr t a) : StakeTracked ((t, a) :: tr) u := by
  cases hturn with
  | @quiet a hcall hstake hconfig =>
    obtain ⟨hout, hlast⟩ : outstanding ((t, a) :: tr) = outstanding tr ∧
        lastDepositor ((t, a) :: tr) = lastDepositor tr := outstanding_of_quiet hcall
    have hload : u.storage.loadCreatorStake = t.storage.loadCreatorStake := congrArg (·.getD 0) hstake
    have hlook : ∀ config', u.storage.config = some config' → ∃ config,
        t.storage.config = some config ∧ SameStake config config' := by
      intro config' hc'
      rw [hc'] at hconfig
      generalize t.storage.config = o at hconfig
      cases hconfig with
      | @some config _ hsame => exact ⟨config, rfl, hsame⟩
    refine ⟨?_, ?_, fun d hd config' hc' => ?_, fun config' hc' => ?_, fun config' hc' => ?_⟩
    · rw [hload, hout, h.amount]
    · rw [hout, hlast]
      exact h.positive
    · obtain ⟨config, hc, hsame⟩ := hlook config' hc'
      rw [hsame.token]
      exact h.token d (hout ▸ hd) config hc
    · obtain ⟨config, hc, hsame⟩ := hlook config' hc'
      rw [hsame.stake, hload]
      exact h.agree config hc
    · obtain ⟨config, hc, hsame⟩ := hlook config' hc'
      rcases hsame.rate with hrate | hrate
      · rw [hrate]
        exact h.rate config hc
      · exact hrate
  | @initialized auths args config' hstake hc' hzero hrate =>
    have hload : u.storage.loadCreatorStake = 0 := by
      unfold ArenaStorage.loadCreatorStake
      rw [hstake]
      exact hg
    have hout : outstanding ((t, .call auths (.initializeArena args)) :: tr) = none :=
      h.stake_zero hg
    refine ⟨by rw [hload, hout]; rfl, by rw [hout]; nofun, by rw [hout]; nofun,
      fun config hc => ?_, fun config hc => ?_⟩
    · cases hc'.symm.trans hc
      rw [hzero, hload]
    · cases hc'.symm.trans hc
      rw [hrate]
      decide
  | @cleaned auths config hc hstake hconfig =>
    have hload : u.storage.loadCreatorStake = 0 := by
      unfold ArenaStorage.loadCreatorStake
      rw [hstake]
      rfl
    have hout : outstanding ((t, .call auths .cleanupArena) :: tr) = none := h.stake_zero hg
    refine ⟨by rw [hload, hout]; rfl, by rw [hout]; nofun, by rw [hout]; nofun,
      fun config' hc' => ?_, fun config' hc' => h.rate config' (hconfig ▸ hc')⟩
    rw [hload, h.agree config' (hconfig ▸ hc')]
    exact hg
  | @staked auths creator amount config hpos hc hstake hc' =>
    have hload : u.storage.loadCreatorStake = amount := congrArg (·.getD 0) hstake
    have hout : outstanding ((t, .call auths (.depositCreatorStake creator amount)) :: tr) =
        some ⟨creator, config.token, amount⟩ := by
      unfold outstanding
      rw [hc]
      rfl
    refine ⟨by rw [hload, hout]; rfl, ?_, ?_, fun config' h' => ?_, fun config' h' => ?_⟩
    · rw [hout]
      rintro d ⟨⟩
      exact ⟨hpos, rfl⟩
    · rw [hout]
      rintro d ⟨⟩ config' h'
      cases hc'.symm.trans h'
      rfl
    · cases hc'.symm.trans h'
      exact hload.symm
    · cases hc'.symm.trans h'
      exact h.rate config hc
  | @unstaked auths creator config ha hpos hc hstake hc' =>
    have hload : u.storage.loadCreatorStake = 0 := congrArg (·.getD 0) hstake
    refine ⟨hload, nofun, nofun, fun config' h' => ?_, fun config' h' => ?_⟩
    · cases hc'.symm.trans h'
      exact hload.symm
    · cases hc'.symm.trans h'
      exact h.rate config hc

/-- In a run from a fresh arena whose steps meet the condition. -/
theorem stakeTracked_of_run {globals : G} {outside : H} {now sequence : ℕ}
    (hrun : Run (Step env) (.fresh globals outside now sequence) tr t)
    (heach : EachStep StakeGuarded tr) : StakeTracked tr t := by
  induction hrun with
  | nil => exact ⟨rfl, nofun, nofun, nofun, nofun⟩
  | snoc _ hs ih => exact (ih heach.2).step hs.stakeTurn heach.1

/-! ## One step -/

/-- A step of a run that has met the condition keeps the stake safe exactly when
    it meets it, too. -/
theorem StakeTracked.stays_stakeSafe_iff (h : StakeTracked tr t) (hturn : StakeTurn env t u a) :
    StakeSafe env ((t, a) :: tr) u ↔ StakeGuarded tr t a := by
  have hagree : StakeGuarded tr t a → StakesAgree u := fun hg => (h.step hturn hg).agree
  cases hturn with
  | @quiet a hcall =>
    have hg : StakeGuarded tr t a := by
      cases a with
      | call auths c =>
        cases c with
        | withdrawCreatorStake | initializeArena | cleanupArena => cases hcall _ _ rfl
        | _ => trivial
      | _ => trivial
    refine iff_of_true ⟨hagree hg, fun auths creator heq => ?_⟩ hg
    cases hcall auths _ heq
  | @initialized auths args config' hstake hc' hzero =>
    refine ⟨fun hsafe => ?_, fun hg => ⟨hagree hg, nofun⟩⟩
    have hnew := hsafe.1 config' hc'
    rw [hzero] at hnew
    exact (hnew.trans (congrArg (·.getD 0) hstake)).symm
  | @cleaned auths config hc hstake hconfig =>
    refine ⟨fun hsafe => ?_, fun hg => ⟨hagree hg, nofun⟩⟩
    have hzero : config.creatorStake = 0 :=
      (hsafe.1 config (hconfig.trans hc)).trans (congrArg (·.getD 0) hstake)
    rw [h.agree config hc] at hzero
    exact hzero
  | staked => exact ⟨fun _ => trivial, fun hg => ⟨hagree hg, nofun⟩⟩
  | @unstaked auths creator config ha hpos hc hstake hc' htr =>
    obtain ⟨d, hd, hamount⟩ := h.stake_pos hpos
    constructor
    · intro hsafe
      obtain ⟨-, d', paid, hd', rfl, -⟩ := hsafe.2 auths creator rfl
      exact (h.positive d' hd').2
    · intro hg
      have hg' : lastDepositor tr = some creator := hg
      refine ⟨hagree hg, fun auths' creator' heq => ?_⟩
      cases heq
      refine ⟨ha, d, config.withdrawable t.storage.loadCreatorStake, hd,
        Option.some.inj ((h.positive d hd).2.symm.trans hg'), ?_, ?_⟩
      · rw [htr, h.token d hd config hc]
      · rw [hamount]
        exact withdrawable_le hpos.le

/-! ## Whole runs -/

/-- In every run of any calls by any callers: only the depositor withdraws the
    stake, once and at most what was deposited, and the two places of the stake
    agree, all along exactly the runs whose steps are guarded. -/
theorem stakeSafe_iff {globals : G} {outside : H} {now sequence : ℕ}
    (hrun : Run (Step env) (.fresh globals outside now sequence) tr t) :
    AlongRun (StakeSafe env) tr t ↔ EachStep StakeGuarded tr :=
  hrun.alongRun_iff_of_each (fun _ hc => by cases hc) fun _ _ _ _ hr heach hs =>
    (stakeTracked_of_run hr heach).stays_stakeSafe_iff hs.stakeTurn

/-- Player 11 deposits a stake and withdraws it, half of it slashed. -/
theorem stakeSafe_iff_sample : ∃ tr w, Run (Step sampleEnv) sampleWorld tr w ∧
    w.transfers = [⟨⟨1⟩, ⟨11⟩, ⟨100⟩, 500⟩, ⟨⟨1⟩, ⟨100⟩, ⟨11⟩, 250⟩] ∧
    (AlongRun (StakeSafe sampleEnv) tr w ↔ EachStep StakeGuarded tr) := by
  obtain ⟨tr, w, hrun, hpaid⟩ : ∃ tr w, Run (Step sampleEnv) sampleWorld tr w ∧
      w.transfers = [⟨⟨1⟩, ⟨11⟩, ⟨100⟩, 500⟩, ⟨⟨1⟩, ⟨100⟩, ⟨11⟩, 250⟩] :=
    exists_run [.call [] (.initializeArena (sampleArgs 10 10)),
      .call [⟨11⟩] (.depositCreatorStake ⟨11⟩ 500), .call [⟨11⟩] (.withdrawCreatorStake ⟨11⟩)]
      (by decide +kernel)
  exact ⟨tr, w, hrun, hpaid, stakeSafe_iff hrun⟩

/-- Player 11 deposits a stake, and 12 withdraws it. -/
theorem not_stakeSafe : ¬ ∀ tr w, Run (Step sampleEnv) sampleWorld tr w →
    AlongRun (StakeSafe sampleEnv) tr w := by
  intro hall
  obtain ⟨tr, t, u, hrun, hstep, hout⟩ : ∃ tr t u, Run (Step sampleEnv) sampleWorld tr t ∧
      Step sampleEnv t (.call [⟨12⟩] (.withdrawCreatorStake ⟨12⟩)) u ∧
        (outstanding tr).map Deposit.creator = some ⟨11⟩ :=
    exists_run_call [.call [] (.initializeArena (sampleArgs 10 10)),
      .call [⟨11⟩] (.depositCreatorStake ⟨11⟩ 500)] [⟨12⟩] (.withdrawCreatorStake ⟨12⟩)
      (by decide +kernel)
  obtain ⟨-, d, paid, hd, hcreator, -⟩ := (hall _ _ (hrun.snoc hstep)).last.2 _ _ rfl
  rw [hd, Option.map_some, hcreator] at hout
  exact absurd (Option.some.inj hout) (by decide)

end InverseArena.CoinArena
