import InverseArena.Arena.Contract

/-!
# The factory contract

Model of `contract/factory/src` (lib.rs, storage.rs, types.rs) together with the
arenas it deploys. The code under the configured hash is the arena contract, and
an arena's `initialize` is the one of `Arena.Contract`. Entry expiry and the
factory's events are not modelled, and an executed `upgrade` ends the life of
this code.

Results:
* `createPool_creates`, `releaseArena_eq_ok`, `reclaimCreatorStake_eq_ok`,
  `updateArenaStatus_eq_ok`: what the calls check and what they leave behind.
-/

namespace InverseArena.Factory

open Host MachineInt Arena

/-! ## Data -/

/-- `MIN_ROUND_DURATION`. -/
def minRoundDuration : ℕ := 60

/-- `MAX_ROUND_DURATION`. -/
def maxRoundDuration : ℕ := 604800

/-- `MIN_PLAYERS`. -/
def minPlayers : ℕ := 2

/-- `MAX_PLAYERS`. -/
def maxPlayers : ℕ := 1000

/-- `PoolConfig`. -/
structure PoolConfig where
  stakeToken : Address
  yieldVault : Address
  entryFee : ℤ
  oracleContract : Address
  minPlayers : ℕ
  maxPlayers : ℕ
  roundDuration : ℕ
  deriving DecidableEq, Repr

/-- `ArenaStatus`. -/
inductive ArenaStatus where
  | Pending | Active | Finished | Cancelled
  deriving DecidableEq, Repr

/-- `ArenaMetadata`. -/
structure ArenaMetadata where
  arenaAddress : Address
  poolId : ℕ
  host : Address
  entryFee : ℤ
  status : ArenaStatus
  createdAt : ℕ
  deriving DecidableEq, Repr

/-- `FactoryError`. -/
inductive FactoryError where
  | NotInitialized | AlreadyInitialized | Unauthorized | InvalidStakeAmount
  | InsufficientCreatorStake | ArenaNotFound | StakeBelowMinimum | HostNotWhitelisted
  | WasmHashNotSet | PoolLimitReached | InvalidVault | InvalidOracle | MaxActivePoolsReached
  | PoolNotFound | ContractPaused | UnsupportedToken | EntryFeeTooLow | InvalidConfig
  deriving DecidableEq, Repr

/-- `CreatorStakeRecord`. -/
structure CreatorStakeRecord where
  creator : Address
  amount : ℤ
  stakeToken : Address
  deriving DecidableEq, Repr

/-- The factory's storage, by the keys of `DataKey`. -/
structure FactoryStorage where
  creatorStake : Address → Option CreatorStakeRecord
  admin : Option Address
  minStake : Option ℤ
  arenaWasmHash : Option (BytesN 32)
  poolSequence : Option ℕ
  whitelisted : Address → Option Bool
  approvedVault : Address → Option Bool
  approvedOracle : Address → Option Bool
  activePoolCount : Address → Option ℕ
  maxActivePools : Option ℕ
  poolCount : Option ℕ
  pool : ℕ → Option ArenaMetadata
  paused : Option Bool
  supportedToken : Address → Option Bool

/-- The storage of a freshly deployed factory. -/
def FactoryStorage.fresh : FactoryStorage where
  creatorStake := fun _ => none
  admin := none
  minStake := none
  arenaWasmHash := none
  poolSequence := none
  whitelisted := fun _ => none
  approvedVault := fun _ => none
  approvedOracle := fun _ => none
  activePoolCount := fun _ => none
  maxActivePools := none
  poolCount := none
  pool := fun _ => none
  paused := none
  supportedToken := fun _ => none

namespace FactoryStorage

variable (s : FactoryStorage)

/-- `has_admin()`. -/
def hasAdmin : Bool := s.admin.isSome

/-- `load_admin()`. -/
def loadAdmin : Result FactoryError Address := okOr s.admin .NotInitialized

/-- `load_min_stake()`. -/
def loadMinStake : Result FactoryError ℤ := okOr s.minStake .NotInitialized

/-- `load_arena_wasm_hash()`. -/
def loadArenaWasmHash : Result FactoryError (BytesN 32) := okOr s.arenaWasmHash .WasmHashNotSet

/-- `set_whitelisted(host, whitelisted)`. -/
def setWhitelisted (host : Address) (whitelisted : Bool) : FactoryStorage :=
  { s with whitelisted := Function.update s.whitelisted host (some whitelisted) }

/-- `is_whitelisted(host)`. -/
def isWhitelisted (host : Address) : Bool := (s.whitelisted host).getD false

/-- `set_approved_vault(vault, approved)`. -/
def setApprovedVault (vault : Address) (approved : Bool) : FactoryStorage :=
  { s with approvedVault := Function.update s.approvedVault vault (some approved) }

/-- `is_approved_vault(vault)`. -/
def isApprovedVault (vault : Address) : Bool := (s.approvedVault vault).getD false

/-- `set_approved_oracle(oracle, approved)`. -/
def setApprovedOracle (oracle : Address) (approved : Bool) : FactoryStorage :=
  { s with approvedOracle := Function.update s.approvedOracle oracle (some approved) }

/-- `is_approved_oracle(oracle)`. -/
def isApprovedOracle (oracle : Address) : Bool := (s.approvedOracle oracle).getD false

/-- `set_supported_token(token, supported)`. -/
def setSupportedToken (token : Address) (supported : Bool) : FactoryStorage :=
  { s with supportedToken := Function.update s.supportedToken token (some supported) }

/-- `is_supported_token(token)`. -/
def isSupportedToken (token : Address) : Bool := (s.supportedToken token).getD false

/-- The pools numbered so far. -/
def sequence : ℕ := s.poolSequence.getD 0

/-- `next_pool_id()`. -/
def nextPoolId : Result FactoryError (ℕ × FactoryStorage) := do
  check (s.sequence + 1 ≤ u32Max) .PoolLimitReached
  pure (s.sequence + 1, { s with poolSequence := some (s.sequence + 1) })

/-- `save_creator_stake(arena, record)`. -/
def saveCreatorStake (arena : Address) (record : CreatorStakeRecord) : FactoryStorage :=
  { s with creatorStake := Function.update s.creatorStake arena (some record) }

/-- `load_creator_stake(arena)`. -/
def loadCreatorStake (arena : Address) : Option CreatorStakeRecord := s.creatorStake arena

/-- `remove_creator_stake(arena)`. -/
def removeCreatorStake (arena : Address) : FactoryStorage :=
  { s with creatorStake := Function.update s.creatorStake arena none }

/-- `load_active_pool_count(creator)`. -/
def loadActivePoolCount (creator : Address) : ℕ := (s.activePoolCount creator).getD 0

/-- `save_active_pool_count(creator, count)`. -/
def saveActivePoolCount (creator : Address) (count : ℕ) : FactoryStorage :=
  { s with activePoolCount := Function.update s.activePoolCount creator (some count) }

/-- `increment_active_pool_count(creator)`. -/
def incrementActivePoolCount (creator : Address) : FactoryStorage :=
  s.saveActivePoolCount creator (satAddU32 (s.loadActivePoolCount creator) 1)

/-- `decrement_active_pool_count(creator)`. -/
def decrementActivePoolCount (creator : Address) : FactoryStorage :=
  if s.loadActivePoolCount creator > 0 then
    s.saveActivePoolCount creator (s.loadActivePoolCount creator - 1)
  else s

/-- `is_paused()`. -/
def isPaused : Bool := s.paused.getD false

/-- `set_paused(paused)`. -/
def setPaused (paused : Bool) : FactoryStorage := { s with paused := some paused }

/-- `save_pool(pool_id, metadata)`. -/
def savePool (poolId : ℕ) (metadata : ArenaMetadata) : FactoryStorage :=
  { s with pool := Function.update s.pool poolId (some metadata) }

/-- `load_pool(pool_id)`. -/
def loadPool (poolId : ℕ) : Option ArenaMetadata := s.pool poolId

/-- `update_pool_status(pool_id, status)`. -/
def updatePoolStatus (poolId : ℕ) (status : ArenaStatus) : FactoryStorage :=
  match s.loadPool poolId with
  | some metadata => s.savePool poolId { metadata with status := status }
  | none => s

/-- `increment_pool_count()`. -/
def incrementPoolCount : FactoryStorage :=
  { s with poolCount := some ((s.poolCount.getD 0 + 1) % (u32Max + 1)) }

/-- `load_max_active_pools()`. -/
def loadMaxActivePools : ℕ := s.maxActivePools.getD 10

/-- `require_admin()`, in a call authorized by `auths`. -/
def requireAdmin (auths : List Address) : Result FactoryError Address := do
  let admin ← s.loadAdmin
  requireAuth auths admin
  pure admin

end FactoryStorage

/-! ## The factory and its arenas -/

/-- What is deployed at an arena's address. -/
structure ArenaInstance where
  storage : ArenaStorage
  events : List ArenaEvent
  transfers : List Transfer

/-- The arena in its surroundings. -/
def ArenaInstance.world {H : Type} (i : ArenaInstance) (outside : H) (now : ℕ) : World H :=
  ⟨i.storage, outside, now, i.events, i.transfers⟩

/-- The arena part of a world. -/
def ArenaInstance.ofWorld {H : Type} (w : World H) : ArenaInstance :=
  ⟨w.storage, w.events, w.transfers⟩

/-- The factory's storage, the arenas it has deployed, and everything else. -/
structure FactoryState (H : Type) where
  storage : FactoryStorage
  arenas : Address → Option ArenaInstance
  outside : H
  now : ℕ

/-- A freshly deployed factory. -/
def FactoryState.fresh {H : Type} (outside : H) (now : ℕ) : FactoryState H :=
  ⟨.fresh, fun _ => none, outside, now⟩

/-- The surroundings of the factory. -/
structure FactoryEnv (H : Type) where
  /-- The surroundings of the contract deployed at `here`, the factory. -/
  network : Env H
  /-- The address of a contract the factory deploys with a salt. -/
  address : BytesN 32 → Address
  /-- Whether the uploaded code with a hash is that of the arena contract. -/
  isArena : BytesN 32 → Bool

namespace FactoryEnv

variable {H : Type} (env : FactoryEnv H)

/-- `env.current_contract_address()`. -/
def here : Address := env.network.here

/-- The surroundings of the arena deployed at `arena`. -/
def arenaEnv (arena : Address) : Env H := { env.network with here := arena }

end FactoryEnv

/-- `salt_for_pool(pool_id)`: the big-endian bytes of the id, at the end. -/
def saltForPool (poolId : ℕ) : BytesN 32 :=
  let salt : BytesN 32 := Vector.replicate 32 0
  let salt := salt.set 28 (UInt8.ofNat (poolId / 2 ^ 24))
  let salt := salt.set 29 (UInt8.ofNat (poolId / 2 ^ 16))
  let salt := salt.set 30 (UInt8.ofNat (poolId / 2 ^ 8))
  salt.set 31 (UInt8.ofNat poolId)

section Calls

variable {H : Type} (env : FactoryEnv H) (auths : List Address)

/-- `initialize(admin, min_stake)`. -/
def initializeFactory (admin : Address) (minStake : ℤ) (f : FactoryState H) :
    Result FactoryError (FactoryState H) := do
  requireAuth auths admin
  check (f.storage.hasAdmin = false) .AlreadyInitialized
  check (¬ minStake ≤ 0) .InvalidStakeAmount
  pure { f with storage := { f.storage with admin := some admin, minStake := some minStake } }

/-- A change of the configuration by the admin. -/
def asAdmin (change : FactoryStorage → FactoryStorage) (f : FactoryState H) :
    Result FactoryError (FactoryState H) := do
  let _ ← f.storage.requireAdmin auths
  pure { f with storage := change f.storage }

/-- `set_arena_wasm_hash(wasm_hash)`. -/
def setArenaWasmHash (wasmHash : BytesN 32) :
    FactoryState H → Result FactoryError (FactoryState H) :=
  asAdmin auths fun s => { s with arenaWasmHash := some wasmHash }

/-- `add_to_whitelist(host)`. -/
def addToWhitelist (host : Address) : FactoryState H → Result FactoryError (FactoryState H) :=
  asAdmin auths fun s => s.setWhitelisted host true

/-- `remove_from_whitelist(host)`. -/
def removeFromWhitelist (host : Address) : FactoryState H → Result FactoryError (FactoryState H) :=
  asAdmin auths fun s => s.setWhitelisted host false

/-- `add_approved_vault(vault)`. -/
def addApprovedVault (vault : Address) : FactoryState H → Result FactoryError (FactoryState H) :=
  asAdmin auths fun s => s.setApprovedVault vault true

/-- `remove_approved_vault(vault)`. -/
def removeApprovedVault (vault : Address) :
    FactoryState H → Result FactoryError (FactoryState H) :=
  asAdmin auths fun s => s.setApprovedVault vault false

/-- `add_approved_oracle(oracle)`. -/
def addApprovedOracle (oracle : Address) : FactoryState H → Result FactoryError (FactoryState H) :=
  asAdmin auths fun s => s.setApprovedOracle oracle true

/-- `remove_approved_oracle(oracle)`. -/
def removeApprovedOracle (oracle : Address) :
    FactoryState H → Result FactoryError (FactoryState H) :=
  asAdmin auths fun s => s.setApprovedOracle oracle false

/-- `add_supported_token(token)`. -/
def addSupportedToken (token : Address) : FactoryState H → Result FactoryError (FactoryState H) :=
  asAdmin auths fun s => s.setSupportedToken token true

/-- `remove_supported_token(token)`. -/
def removeSupportedToken (token : Address) :
    FactoryState H → Result FactoryError (FactoryState H) :=
  asAdmin auths fun s => s.setSupportedToken token false

/-- `set_max_active_pools(max)`. -/
def setMaxActivePools (max : ℕ) : FactoryState H → Result FactoryError (FactoryState H) :=
  asAdmin auths fun s => { s with maxActivePools := some max }

/-- `pause()`. -/
def pause : FactoryState H → Result FactoryError (FactoryState H) :=
  asAdmin auths fun s => s.setPaused true

/-- `unpause()`. -/
def unpause : FactoryState H → Result FactoryError (FactoryState H) :=
  asAdmin auths fun s => s.setPaused false

/-- `release_arena(arena)`. -/
def releaseArena (arena : Address) (f : FactoryState H) :
    Result FactoryError (FactoryState H) := do
  check (f.storage.isPaused = false) .ContractPaused
  requireAuth auths arena
  let record ← okOr (f.storage.loadCreatorStake arena) .ArenaNotFound
  pure { f with storage := f.storage.decrementActivePoolCount record.creator }

/-- `collect_creator_stake(host, stake_token, amount)`. -/
def collectCreatorStake (host stakeToken : Address) (amount : ℤ) (now : ℕ) (outside : H) :
    Result FactoryError H :=
  unwrap (env.network.transfer now stakeToken host env.here amount outside)

/-- The arguments `create_pool` passes to the arena's `initialize`. -/
def PoolConfig.arenaArgs (config : PoolConfig) (host factory : Address) (poolId : ℕ) :
    InitializeArgs where
  admin := host
  stakeToken := config.stakeToken
  yieldVault := config.yieldVault
  entryFee := config.entryFee
  oracleContract := config.oracleContract
  factory := factory
  poolId := poolId
  minPlayers := config.minPlayers
  maxPlayers := config.maxPlayers
  roundDuration := config.roundDuration

/-- The configurations `create_pool` rejects by the bounds above. -/
def InvalidConfig (config : PoolConfig) : Prop :=
  config.roundDuration < minRoundDuration ∨ config.roundDuration > maxRoundDuration ∨
    config.minPlayers < minPlayers ∨ config.minPlayers > config.maxPlayers ∨
    config.maxPlayers > maxPlayers

instance (config : PoolConfig) : Decidable (InvalidConfig config) :=
  inferInstanceAs (Decidable (_ ∨ _))

/-- `create_pool(host, config)`. -/
def createPool (host : Address) (config : PoolConfig) (f : FactoryState H) :
    Result FactoryError (Address × FactoryState H) := do
  check (f.storage.isPaused = false) .ContractPaused
  requireAuth auths host
  let _ ← f.storage.loadAdmin
  check (¬ InvalidConfig config) .InvalidConfig
  check (f.storage.isWhitelisted host = true) .HostNotWhitelisted
  check (¬ config.entryFee ≤ 0) .EntryFeeTooLow
  let minStake ← f.storage.loadMinStake
  check (¬ config.entryFee < minStake) .StakeBelowMinimum
  check (f.storage.isSupportedToken config.stakeToken = true) .UnsupportedToken
  let maxPools := f.storage.loadMaxActivePools
  let active := f.storage.loadActivePoolCount host
  check (¬ active ≥ maxPools) .MaxActivePoolsReached
  let wasmHash ← f.storage.loadArenaWasmHash
  let (poolId, storage) ← f.storage.nextPoolId
  let outside ← collectCreatorStake env host config.stakeToken config.entryFee f.now f.outside
  -- `deploy_v2` traps without code, and on an address that is taken
  let arena := env.address (saltForPool poolId)
  unwrap (if env.isArena wasmHash = true ∧ (f.arenas arena).isNone then some () else none)
  let w ← unwrap (initializeArena (env.arenaEnv arena) auths
    (config.arenaArgs host env.here poolId) (.fresh outside f.now)).toOption
  let storage := storage.saveCreatorStake arena
    { creator := host, amount := config.entryFee, stakeToken := config.stakeToken }
  let storage := storage.incrementActivePoolCount host
  let storage := storage.savePool poolId
    { arenaAddress := arena, poolId := poolId, host := host, entryFee := config.entryFee
      status := .Active, createdAt := f.now }
  let storage := storage.incrementPoolCount
  pure (arena, { f with
    storage := storage
    arenas := Function.update f.arenas arena (some (.ofWorld w))
    outside := w.outside })

/-- `reclaim_creator_stake(arena)`. -/
def reclaimCreatorStake (arena : Address) (f : FactoryState H) :
    Result FactoryError (FactoryState H) := do
  let record ← okOr (f.storage.loadCreatorStake arena) .ArenaNotFound
  requireAuth auths arena
  let outside ← unwrap (env.network.transfer f.now record.stakeToken env.here record.creator
    record.amount f.outside)
  pure { f with storage := f.storage.removeCreatorStake arena, outside := outside }

/-- `update_arena_status(pool_id, status)`. -/
def updateArenaStatus (poolId : ℕ) (status : ArenaStatus) (f : FactoryState H) :
    Result FactoryError (FactoryState H) := do
  let metadata ← okOr (f.storage.loadPool poolId) .PoolNotFound
  requireAuth auths metadata.arenaAddress
  pure { f with storage := f.storage.updatePoolStatus poolId status }

end Calls

/-! ## What each operation does -/

section Specs

variable {H : Type} {env : FactoryEnv H} {auths : List Address} {f f' : FactoryState H}
  {arena host : Address} {config : PoolConfig} {poolId : ℕ} {status : ArenaStatus}

theorem asAdmin_eq_ok {change : FactoryStorage → FactoryStorage} :
    asAdmin auths change f = .ok f' ↔
      (∃ admin, f.storage.admin = some admin ∧ admin ∈ auths) ∧
        f' = { f with storage := change f.storage } := by
  simp only [asAdmin, FactoryStorage.requireAdmin, FactoryStorage.loadAdmin, Fallible.bind_eq_ok,
    okOr_eq_ok, requireAuth_eq_ok, Fallible.pure_eq_ok, exists_const]
  constructor
  · rintro ⟨-, ⟨admin, hadmin, hauth, -⟩, rfl⟩
    exact ⟨⟨admin, hadmin, hauth⟩, rfl⟩
  · rintro ⟨⟨admin, hadmin, hauth⟩, rfl⟩
    exact ⟨admin, ⟨admin, hadmin, hauth, rfl⟩, rfl⟩

theorem releaseArena_eq_ok : releaseArena auths arena f = .ok f' ↔
    f.storage.isPaused = false ∧ arena ∈ auths ∧ ∃ record,
      f.storage.creatorStake arena = some record ∧
        f' = { f with storage := f.storage.decrementActivePoolCount record.creator } := by
  simp only [releaseArena, FactoryStorage.loadCreatorStake, Fallible.bind_eq_ok, check_eq_ok,
    requireAuth_eq_ok, okOr_eq_ok, Fallible.pure_eq_ok, exists_const]
  constructor
  · rintro ⟨hp, ha, record, hr, rfl⟩
    exact ⟨hp, ha, record, hr, rfl⟩
  · rintro ⟨hp, ha, record, hr, rfl⟩
    exact ⟨hp, ha, record, hr, rfl⟩

theorem reclaimCreatorStake_eq_ok : reclaimCreatorStake env auths arena f = .ok f' ↔
    arena ∈ auths ∧ ∃ record outside, f.storage.creatorStake arena = some record ∧
      env.network.transfer f.now record.stakeToken env.here record.creator record.amount
        f.outside = some outside ∧
      f' = { f with storage := f.storage.removeCreatorStake arena, outside := outside } := by
  simp only [reclaimCreatorStake, FactoryStorage.loadCreatorStake, Fallible.bind_eq_ok,
    requireAuth_eq_ok, okOr_eq_ok, unwrap_eq_ok, Fallible.pure_eq_ok, exists_const]
  constructor
  · rintro ⟨record, hr, ha, outside, ht, rfl⟩
    exact ⟨ha, record, outside, hr, ht, rfl⟩
  · rintro ⟨ha, record, outside, hr, ht, rfl⟩
    exact ⟨record, hr, ha, outside, ht, rfl⟩

theorem updateArenaStatus_eq_ok : updateArenaStatus auths poolId status f = .ok f' ↔
    ∃ metadata, f.storage.pool poolId = some metadata ∧ metadata.arenaAddress ∈ auths ∧
      f' = { f with storage := f.storage.savePool poolId { metadata with status := status } } := by
  simp only [updateArenaStatus, FactoryStorage.updatePoolStatus, FactoryStorage.loadPool,
    Fallible.bind_eq_ok, requireAuth_eq_ok, okOr_eq_ok, Fallible.pure_eq_ok, exists_const]
  constructor
  · rintro ⟨metadata, hm, ha, rfl⟩
    exact ⟨metadata, hm, ha, by rw [hm]⟩
  · rintro ⟨metadata, hm, ha, rfl⟩
    exact ⟨metadata, hm, ha, by rw [hm]⟩

/-- The record of the stake in a new pool. -/
def PoolConfig.stakeOf (config : PoolConfig) (host : Address) : CreatorStakeRecord :=
  { creator := host, amount := config.entryFee, stakeToken := config.stakeToken }

/-- The metadata of a new pool. -/
def PoolConfig.metadataOf (config : PoolConfig) (host arena : Address) (poolId now : ℕ) :
    ArenaMetadata :=
  { arenaAddress := arena, poolId := poolId, host := host, entryFee := config.entryFee
    status := .Active, createdAt := now }

/-- A vacant address has no stake where only arenas have stakes. -/
theorem creatorStake_of_vacant {f : FactoryState H} {arena : Address}
    (hstakes : ∀ x record, f.storage.creatorStake x = some record → (f.arenas x).isSome = true)
    (hvacant : f.arenas arena = none) : f.storage.creatorStake arena = none := by
  rw [Option.eq_none_iff_forall_ne_some]
  intro record hr
  have hsome := hstakes arena record hr
  rw [hvacant] at hsome
  cases hsome

/-- What an accepted `create_pool` has found, and what it leaves behind. -/
structure Creates (env : FactoryEnv H) (auths : List Address) (host : Address)
    (config : PoolConfig) (f : FactoryState H) (arena : Address) (f' : FactoryState H) :
    Prop where
  unpaused : f.storage.isPaused = false
  authorized : host ∈ auths
  valid : ¬ InvalidConfig config
  whitelisted : f.storage.isWhitelisted host = true
  positive : 0 < config.entryFee
  minStake : ∃ minStake, f.storage.minStake = some minStake ∧ minStake ≤ config.entryFee
  supported : f.storage.isSupportedToken config.stakeToken = true
  room : f.storage.loadActivePoolCount host < f.storage.loadMaxActivePools
  numbered : f.storage.sequence + 1 ≤ u32Max
  arena_eq : arena = env.address (saltForPool (f.storage.sequence + 1))
  vacant : f.arenas arena = none
  /-- The stake is collected, the arena initialized, and the pool recorded. -/
  result : ∃ outside w,
    env.network.transfer f.now config.stakeToken host env.here config.entryFee f.outside =
      some outside ∧
    initializeArena (env.arenaEnv arena) auths
      (config.arenaArgs host env.here (f.storage.sequence + 1)) (.fresh outside f.now) = .ok w ∧
    f' = { f with
      arenas := Function.update f.arenas arena (some (.ofWorld w))
      outside := w.outside
      storage := ((({ f.storage with poolSequence := some (f.storage.sequence + 1) }
        |>.saveCreatorStake arena (config.stakeOf host)).incrementActivePoolCount host).savePool
          (f.storage.sequence + 1) (config.metadataOf host arena (f.storage.sequence + 1)
            f.now)).incrementPoolCount }

theorem createPool_creates (h : createPool env auths host config f = .ok (arena, f')) :
    Creates env auths host config f arena f' := by
  simp only [createPool, FactoryStorage.loadAdmin, FactoryStorage.loadMinStake,
    FactoryStorage.loadArenaWasmHash, FactoryStorage.nextPoolId, collectCreatorStake,
    Fallible.bind_eq_ok, check_eq_ok, requireAuth_eq_ok, okOr_eq_ok, unwrap_eq_ok,
    Fallible.pure_eq_ok, exists_const, not_le, not_lt, Fallible.toOption_eq_some, Prod.exists,
    Prod.mk.injEq] at h
  obtain ⟨hpaused, hauth, admin, hadmin, hvalid, hwl, hpos, minStake, hmin, hle, hsup, hroom,
    wasmHash, hwasm, poolId, storage, ⟨hnum, rfl, rfl⟩, outside, htr, u, hdeploy, w, hinit, rfl,
    rfl⟩ := h
  split_ifs at hdeploy with hfree
  exact {
    unpaused := hpaused
    authorized := hauth
    valid := hvalid
    whitelisted := hwl
    positive := hpos
    minStake := ⟨minStake, hmin, hle⟩
    supported := hsup
    room := hroom
    numbered := hnum
    arena_eq := rfl
    vacant := Option.isNone_iff_eq_none.mp hfree.2
    result := ⟨outside, w, htr, hinit, rfl⟩ }

end Specs

/-! ## Runs -/

/-- A call of an entry point. -/
inductive FactoryCall where
  | initializeFactory (admin : Address) (minStake : ℤ)
  | setArenaWasmHash (wasmHash : BytesN 32)
  | addToWhitelist (host : Address)
  | removeFromWhitelist (host : Address)
  | addApprovedVault (vault : Address)
  | removeApprovedVault (vault : Address)
  | addApprovedOracle (oracle : Address)
  | removeApprovedOracle (oracle : Address)
  | addSupportedToken (token : Address)
  | removeSupportedToken (token : Address)
  | setMaxActivePools (max : ℕ)
  | pause
  | unpause
  | releaseArena (arena : Address)
  | createPool (host : Address) (config : PoolConfig)
  | reclaimCreatorStake (arena : Address)
  | updateArenaStatus (poolId : ℕ) (status : ArenaStatus)
  deriving DecidableEq, Repr

section Runs

variable {H : Type} (env : FactoryEnv H) (auths : List Address)

/-- The call `c` authorized by `auths`. -/
def exec : FactoryCall → FactoryState H → Result FactoryError (FactoryState H)
  | .initializeFactory admin minStake => initializeFactory auths admin minStake
  | .setArenaWasmHash h => setArenaWasmHash auths h
  | .addToWhitelist a => addToWhitelist auths a
  | .removeFromWhitelist a => removeFromWhitelist auths a
  | .addApprovedVault a => addApprovedVault auths a
  | .removeApprovedVault a => removeApprovedVault auths a
  | .addApprovedOracle a => addApprovedOracle auths a
  | .removeApprovedOracle a => removeApprovedOracle auths a
  | .addSupportedToken a => addSupportedToken auths a
  | .removeSupportedToken a => removeSupportedToken auths a
  | .setMaxActivePools n => setMaxActivePools auths n
  | .pause => pause auths
  | .unpause => unpause auths
  | .releaseArena a => releaseArena auths a
  | .createPool host config => fun f => (createPool env auths host config f).map (·.2)
  | .reclaimCreatorStake a => reclaimCreatorStake env auths a
  | .updateArenaStatus i status => updateArenaStatus auths i status

/-- What can happen: a call of the factory, something done by the arenas and
    everybody else, the passing of time. -/
inductive FactoryAction (H : Type) where
  | call (auths : List Address) (c : FactoryCall)
  | elsewhere (arenas : Address → Option ArenaInstance) (outside : H)
  | tick (time : ℕ)

/-- One step. A failing call is rolled back and is no step. The factory makes no
    call that needs its own authorization but its transfers, and only it deploys
    at its addresses. -/
inductive FactoryStep : FactoryState H → FactoryAction H → FactoryState H → Prop
  | call {f f' auths c} : env.here ∉ auths → exec env auths c f = .ok f' →
      FactoryStep f (.call auths c) f'
  | elsewhere {f arenas outside} : (∀ a, (arenas a).isSome = (f.arenas a).isSome) →
      env.network.evolves f.now f.outside outside →
      FactoryStep f (.elsewhere arenas outside) { f with arenas := arenas, outside := outside }
  | tick {f time} : f.now ≤ time → time ≤ u64Max →
      FactoryStep f (.tick time) { f with now := time }

/-! ## What a call does to the books -/

/-- The pools, the stakes, the counts and the surroundings are as before. -/
structure SameBooks (f f' : FactoryState H) : Prop where
  creatorStake : f'.storage.creatorStake = f.storage.creatorStake
  activePoolCount : f'.storage.activePoolCount = f.storage.activePoolCount
  pool : f'.storage.pool = f.storage.pool
  poolSequence : f'.storage.poolSequence = f.storage.poolSequence
  arenas : f'.arenas = f.arenas
  outside : f'.outside = f.outside
  now : f'.now = f.now

/-- What an accepted call does. -/
inductive Effect (f : FactoryState H) : FactoryCall → FactoryState H → Prop
  | configure {c f'} : (∀ arena, c ≠ .releaseArena arena) →
      (∀ host config, c ≠ .createPool host config) → (∀ arena, c ≠ .reclaimCreatorStake arena) →
      (∀ i status, c ≠ .updateArenaStatus i status) → SameBooks f f' → Effect f c f'
  | release {arena record} : f.storage.isPaused = false → arena ∈ auths →
      f.storage.creatorStake arena = some record →
      Effect f (.releaseArena arena)
        { f with storage := f.storage.decrementActivePoolCount record.creator }
  | create {host config arena f'} : Creates env auths host config f arena f' →
      Effect f (.createPool host config) f'
  | reclaim {arena record outside} : arena ∈ auths → f.storage.creatorStake arena = some record →
      env.network.transfer f.now record.stakeToken env.here record.creator record.amount
        f.outside = some outside →
      Effect f (.reclaimCreatorStake arena)
        { f with storage := f.storage.removeCreatorStake arena, outside := outside }
  | update {i status metadata} : f.storage.pool i = some metadata →
      metadata.arenaAddress ∈ auths →
      Effect f (.updateArenaStatus i status)
        { f with storage := f.storage.savePool i { metadata with status := status } }

theorem sameBooks_of_asAdmin {change : FactoryStorage → FactoryStorage} {f f' : FactoryState H}
    (h : asAdmin auths change f = .ok f')
    (hbooks : (change f.storage).creatorStake = f.storage.creatorStake ∧
      (change f.storage).activePoolCount = f.storage.activePoolCount ∧
      (change f.storage).pool = f.storage.pool ∧
      (change f.storage).poolSequence = f.storage.poolSequence) : SameBooks f f' := by
  obtain ⟨-, rfl⟩ := asAdmin_eq_ok.mp h
  obtain ⟨h1, h2, h3, h4⟩ := hbooks
  exact ⟨h1, h2, h3, h4, rfl, rfl, rfl⟩

/-- Every accepted call has one of these effects. -/
theorem exec_effect {c : FactoryCall} {f f' : FactoryState H} (h : exec env auths c f = .ok f') :
    Effect env auths f c f' := by
  cases c with
  | releaseArena arena =>
    obtain ⟨hpaused, hauth, record, hrecord, rfl⟩ := releaseArena_eq_ok.mp h
    exact .release hpaused hauth hrecord
  | createPool host config =>
    change (createPool env auths host config f).map (·.2) = .ok f' at h
    cases hc : createPool env auths host config f with
    | error e => rw [hc] at h; cases h
    | ok r =>
      rw [hc] at h
      cases h
      exact .create (createPool_creates hc)
  | reclaimCreatorStake arena =>
    obtain ⟨hauth, record, outside, hrecord, htr, rfl⟩ := reclaimCreatorStake_eq_ok.mp h
    exact .reclaim hauth hrecord htr
  | updateArenaStatus i status =>
    obtain ⟨metadata, hm, hauth, rfl⟩ := updateArenaStatus_eq_ok.mp h
    exact .update hm hauth
  | initializeFactory admin minStake =>
    simp only [exec, initializeFactory, Fallible.bind_eq_ok, requireAuth_eq_ok, check_eq_ok,
      Fallible.pure_eq_ok, exists_const] at h
    obtain ⟨-, -, -, rfl⟩ := h
    refine .configure ?_ ?_ ?_ ?_ ⟨rfl, rfl, rfl, rfl, rfl, rfl, rfl⟩ <;> simp
  | setArenaWasmHash _ | addToWhitelist _ | removeFromWhitelist _ | addApprovedVault _
  | removeApprovedVault _ | addApprovedOracle _ | removeApprovedOracle _ | addSupportedToken _
  | removeSupportedToken _ | setMaxActivePools _ | pause | unpause =>
    simp only [exec, setArenaWasmHash, addToWhitelist, removeFromWhitelist, addApprovedVault,
      removeApprovedVault, addApprovedOracle, removeApprovedOracle, addSupportedToken,
      removeSupportedToken, setMaxActivePools, pause, unpause] at h
    refine .configure ?_ ?_ ?_ ?_ (sameBooks_of_asAdmin auths h ⟨rfl, rfl, rfl, rfl⟩) <;> simp

end Runs

end InverseArena.Factory
