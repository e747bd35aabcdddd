import InverseArena.Factory.Replay

/-!
# The limits of the factory and of the arena

`create_pool` has limits of its own (`contract/factory/src/lib.rs`, lines 16-20)
and passes what it accepts on to the arena's `initialize`, which has others
(`contract/arena/src/lib.rs`, lines 33-51). The bounds on a round's duration that
the arena declares are checked nowhere.

Results:
* `exists_initializeArena_iff`, `exists_startRound_iff`: what the arena accepts.
* `exists_createPool_iff`: after its own checks `create_pool` can fail only in the
  arena, if the stake is paid and the arena is deployed.
* `limitsAgree_iff`: the arena accepts what the factory accepted exactly up to
  100 players.
-/

namespace InverseArena.Factory

open Host MachineInt Arena Transition

variable {H : Type} {env : FactoryEnv H} {auths : List Address} {host : Address}
  {config : PoolConfig} {f : FactoryState H} {outside : H}

/-- What `create_pool` checks before it collects the stake. -/
structure PassesChecks (auths : List Address) (host : Address) (config : PoolConfig)
    (f : FactoryState H) : Prop where
  unpaused : f.storage.isPaused = false
  authorized : host ∈ auths
  initialized : f.storage.hasAdmin = true
  valid : ¬ InvalidConfig config
  whitelisted : f.storage.isWhitelisted host = true
  positive : 0 < config.entryFee
  minStake : ∃ minStake ∈ f.storage.minStake, minStake ≤ config.entryFee
  supported : f.storage.isSupportedToken config.stakeToken = true
  room : f.storage.loadActivePoolCount host < f.storage.loadMaxActivePools
  code : f.storage.arenaWasmHash.isSome = true
  numbered : f.storage.sequence + 1 ≤ u32Max

/-- The address of the next arena. -/
def nextArena (env : FactoryEnv H) (f : FactoryState H) : Address :=
  env.address (saltForPool (f.storage.sequence + 1))

/-- The arguments for the next arena. -/
def nextArgs (env : FactoryEnv H) (host : Address) (config : PoolConfig) (f : FactoryState H) :
    InitializeArgs :=
  config.arenaArgs host env.here (f.storage.sequence + 1)

/-- What is needed of others: the host pays the stake, which leads to `outside`, the
    arena's code and address are there, and the vault answers `balance_of`. -/
structure Deployable (env : FactoryEnv H) (host : Address) (config : PoolConfig)
    (f : FactoryState H) (outside : H) : Prop where
  collected : env.network.transfer f.now config.stakeToken host env.here config.entryFee
    f.outside = some outside
  code : ∀ wasmHash ∈ f.storage.arenaWasmHash, env.isArena wasmHash = true
  vacant : (f.arenas (nextArena env f)).isNone = true
  answers : (env.network.balanceOf f.now config.yieldVault (nextArena env f) outside).isSome = true

/-! ## What the arena accepts -/

section Arena

variable {network : Env H} {a : InitializeArgs} {w : World H} {durationSeconds : ℕ}

theorem exists_initializeArena_iff : (∃ w', initializeArena network auths a w = .ok w') ↔
    a.admin ∈ auths ∧ w.storage.hasConfig = false ∧ 0 < a.entryFee ∧
      minPlayersToStart ≤ a.minPlayers ∧ a.minPlayers ≤ a.maxPlayers ∧
      a.maxPlayers ≤ maxPlayersAllowed ∧
      (network.balanceOf w.now a.yieldVault network.here w.outside).isSome = true := by
  simp only [initializeArena, Fallible.bind_eq_ok, requireAuth_eq_ok, check_eq_ok, okOr_eq_ok,
    Fallible.pure_eq_ok, exists_const, not_or, not_lt, gt_iff_lt, not_le, Prod.exists]
  constructor
  · rintro ⟨w', ha, hnew, hfee, ⟨hmin, hle⟩, hmax, balance, outside, hbal, -⟩
    exact ⟨ha, hnew, hfee, hmin, hle, hmax, by rw [hbal]; rfl⟩
  · rintro ⟨ha, hnew, hfee, hmin, hle, hmax, hbal⟩
    obtain ⟨⟨balance, outside⟩, hbal⟩ := Option.isSome_iff_exists.mp hbal
    exact ⟨_, ha, hnew, hfee, ⟨hmin, hle⟩, hmax, balance, outside, hbal, rfl⟩

/-- A state in which the admin can start a round. -/
def Startable (auths : List Address) (w : World H) : Prop :=
  ∃ config ∈ w.storage.config, config.admin ∈ auths ∧ config.paused = false ∧
    canTransition config.state .Active = true ∧
    w.storage.loadMinPlayers ≤ (w.storage.loadAllPlayers.filter w.storage.isActive).length

/-- `start_round` accepts every duration. -/
theorem exists_startRound_iff :
    (∃ w', startRound network auths durationSeconds w = .ok w') ↔ Startable auths w := by
  simp only [startRound, ArenaStorage.loadConfig, Fallible.bind_eq_ok, requireAuth_eq_ok,
    check_eq_ok, okOr_eq_ok, requireNotPaused_eq_ok, ensureTransition_eq_ok,
    Fallible.pure_eq_ok, exists_const, not_lt]
  constructor
  · rintro ⟨w', config, hc, ha, hp, htrans, hmin, -⟩
    exact ⟨config, hc, ha, hp, htrans, hmin⟩
  · rintro ⟨config, hc, ha, hp, htrans, hmin⟩
    exact ⟨_, config, hc, ha, hp, htrans, hmin, rfl⟩

end Arena

/-! ## What follows the checks -/

/-- After the checks of the factory all depends on those of the arena. -/
theorem exists_createPool_iff (hp : PassesChecks auths host config f)
    (hd : Deployable env host config f outside) :
    (∃ r, createPool env auths host config f = .ok r) ↔
      ∃ w, initializeArena (env.arenaEnv (nextArena env f)) auths (nextArgs env host config f)
        (.fresh outside f.now) = .ok w := by
  constructor
  · rintro ⟨⟨arena, f'⟩, hcreate⟩
    have hc := createPool_creates hcreate
    obtain ⟨outside', w, htr, hinit, -⟩ := hc.result
    rw [hd.collected] at htr
    obtain rfl := Option.some.inj htr
    rw [hc.arena_eq] at hinit
    exact ⟨w, hinit⟩
  · rintro ⟨w, hinit⟩
    obtain ⟨admin, hadmin⟩ := Option.isSome_iff_exists.mp hp.initialized
    obtain ⟨minStake, hmin, hle⟩ := hp.minStake
    obtain ⟨wasmHash, hwasm⟩ := Option.isSome_iff_exists.mp hp.code
    have hdeploy : env.isArena wasmHash = true ∧ (f.arenas (nextArena env f)).isNone = true :=
      ⟨hd.code wasmHash hwasm, hd.vacant⟩
    simp only [createPool, FactoryStorage.loadAdmin, FactoryStorage.loadMinStake,
      FactoryStorage.loadArenaWasmHash, FactoryStorage.nextPoolId, collectCreatorStake,
      Fallible.bind_eq_ok, check_eq_ok, requireAuth_eq_ok, okOr_eq_ok, unwrap_eq_ok,
      Fallible.pure_eq_ok, exists_const, not_le, not_lt, Fallible.toOption_eq_some, Prod.exists,
      Prod.mk.injEq]
    exact ⟨_, _, hp.unpaused, hp.authorized, admin, hadmin, hp.valid, hp.whitelisted, hp.positive,
      minStake, hmin, hle, hp.supported, hp.room, wasmHash, hwasm, _, _,
      ⟨hp.numbered, rfl, rfl⟩, outside, hd.collected, ⟨⟩, if_pos hdeploy, w, hinit, rfl, rfl⟩

/-- The arena accepts what the factory has accepted: it is initialized, so that
    `create_pool` succeeds, and its rounds can have the duration. -/
structure LimitsAgree (env : FactoryEnv H) (auths : List Address) (host : Address)
    (config : PoolConfig) (f : FactoryState H) (outside : H) : Prop where
  initializes : ∃ w, initializeArena (env.arenaEnv (nextArena env f)) auths
    (nextArgs env host config f) (.fresh outside f.now) = .ok w
  creates : ∃ r, createPool env auths host config f = .ok r
  starts : ∀ auths (w : World H), Startable auths w →
    ∃ w', startRound (env.arenaEnv (nextArena env f)) auths config.roundDuration w = .ok w'

/-- The two contracts agree about an accepted configuration exactly when it has no
    more players than an arena. -/
theorem limitsAgree_iff (hp : PassesChecks auths host config f)
    (hd : Deployable env host config f outside) :
    LimitsAgree env auths host config f outside ↔ config.maxPlayers ≤ maxPlayersAllowed := by
  constructor
  · intro h
    obtain ⟨-, -, -, -, -, hmax, -⟩ := exists_initializeArena_iff.mp h.initializes
    exact hmax
  · intro hmax
    have hvalid := hp.valid
    simp only [InvalidConfig, not_or, not_lt, gt_iff_lt] at hvalid
    obtain ⟨-, -, hmin, hle, -⟩ := hvalid
    have hinit : ∃ w, initializeArena (env.arenaEnv (nextArena env f)) auths
        (nextArgs env host config f) (.fresh outside f.now) = .ok w :=
      exists_initializeArena_iff.mpr
        ⟨hp.authorized, rfl, hp.positive, hmin, hle, hmax, hd.answers⟩
    exact ⟨hinit, (exists_createPool_iff hp hd).mpr hinit,
      fun _ _ hw => exists_startRound_iff.mpr hw⟩

/-! ## A factory that is set up -/

/-- A pool of 2 to `maxPlayers` players. -/
def sampleConfigFor (maxPlayers : ℕ) : PoolConfig := { sampleConfig with maxPlayers := maxPlayers }

/-- The sample factory is ready for every pool within its own limits. -/
theorem sample_ready {n : ℕ} (hmin : 2 ≤ n) (hmax : n ≤ maxPlayers) :
    ∃ tr f outside, Run (FactoryStep sampleEnv) (.fresh sampleBalances 0) tr f ∧
      PassesChecks [⟨11⟩] ⟨11⟩ (sampleConfigFor n) f ∧
      Deployable sampleEnv ⟨11⟩ (sampleConfigFor n) f outside := by
  obtain ⟨tr, f, hrun, hpaused, hadmin, hwl, hstake, hsup, hroom, hcode, hnum, hpays, hvacant⟩ :=
    @exists_factoryRun _ sampleEnv sampleSetup (.fresh sampleBalances 0)
      (fun _ f => f.storage.isPaused = false ∧ f.storage.hasAdmin = true ∧
        f.storage.isWhitelisted ⟨11⟩ = true ∧ f.storage.minStake = some 100 ∧
        f.storage.isSupportedToken ⟨1⟩ = true ∧
        f.storage.loadActivePoolCount ⟨11⟩ < f.storage.loadMaxActivePools ∧
        f.storage.arenaWasmHash.isSome = true ∧ f.storage.sequence + 1 ≤ u32Max ∧
        (sampleNetwork.transfer f.now ⟨1⟩ ⟨11⟩ ⟨4⟩ 100 f.outside).isSome = true ∧
        (f.arenas (nextArena sampleEnv f)).isNone = true) (by decide +kernel)
  obtain ⟨outside, hpays⟩ := Option.isSome_iff_exists.mp hpays
  have hvalid : ¬ InvalidConfig (sampleConfigFor n) := by
    simp only [InvalidConfig, sampleConfigFor, sampleConfig, minRoundDuration, maxRoundDuration,
      minPlayers]
    omega
  have hfee : 100 ≤ (sampleConfigFor n).entryFee := le_refl (100 : ℤ)
  exact ⟨tr, f, outside, hrun, ⟨hpaused, by decide, hadmin, hvalid, hwl, by omega,
    ⟨100, hstake, hfee⟩, hsup, hroom, hcode, hnum⟩, ⟨hpays, fun _ _ => rfl, hvacant, rfl⟩⟩

/-- A pool of at most 100 players. -/
theorem limitsAgree_hundred :
    ∃ tr f outside, Run (FactoryStep sampleEnv) (.fresh sampleBalances 0) tr f ∧
      LimitsAgree sampleEnv [⟨11⟩] ⟨11⟩ (sampleConfigFor 100) f outside := by
  obtain ⟨tr, f, outside, hrun, hp, hd⟩ := @sample_ready 100 (by decide) (by decide)
  exact ⟨tr, f, outside, hrun, (limitsAgree_iff hp hd).mpr (by decide)⟩

/-- A pool of at most 101 players passes the checks, and `create_pool` fails. -/
theorem not_limitsAgree :
    ∃ tr f outside, Run (FactoryStep sampleEnv) (.fresh sampleBalances 0) tr f ∧
      PassesChecks [⟨11⟩] ⟨11⟩ (sampleConfigFor 101) f ∧
      Deployable sampleEnv ⟨11⟩ (sampleConfigFor 101) f outside ∧
      (¬ ∃ r, createPool sampleEnv [⟨11⟩] ⟨11⟩ (sampleConfigFor 101) f = .ok r) ∧
      ¬ LimitsAgree sampleEnv [⟨11⟩] ⟨11⟩ (sampleConfigFor 101) f outside := by
  obtain ⟨tr, f, outside, hrun, hp, hd⟩ := @sample_ready 101 (by decide) (by decide)
  have hfails : ¬ ∃ r, createPool sampleEnv [⟨11⟩] ⟨11⟩ (sampleConfigFor 101) f = .ok r := by
    rw [exists_createPool_iff hp hd, exists_initializeArena_iff]
    rintro ⟨-, -, -, -, -, hmax, -⟩
    exact absurd hmax (show ¬ 101 ≤ maxPlayersAllowed by decide)
  exact ⟨tr, f, outside, hrun, hp, hd, hfails, fun h => hfails h.creates⟩

end InverseArena.Factory
