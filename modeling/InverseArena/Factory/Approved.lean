import InverseArena.Factory.Replay

/-!
# Which pools the factory creates

Results:
* `FactoryStep.pools`: pools are added by `create_pool` only, and keep what it
  records but for the status.
* `History.unique`: every pool has one creation in the history.
* `approved_iff`: the pools all had an approved vault and oracle exactly when
  the configurations of the creations did; the factory itself does not look.
-/

namespace InverseArena.Factory

open Host MachineInt Arena Transition

variable {H : Type} {env : FactoryEnv H} {f f' : FactoryState H} {a : FactoryAction H}
  {tr : List (FactoryState H × FactoryAction H)}

/-! ## The pools of a run -/

/-- The same pools, but for their status. -/
structure SamePools (f f' : FactoryState H) : Prop where
  sequence : f'.storage.sequence = f.storage.sequence
  kept : ∀ i m', f'.storage.pool i = some m' →
    ∃ m, f.storage.pool i = some m ∧ m' = { m with status := m'.status }
  stored : ∀ i, (f.storage.pool i).isSome = true → (f'.storage.pool i).isSome = true

theorem SamePools.of_eq (hs : f'.storage.poolSequence = f.storage.poolSequence)
    (hp : f'.storage.pool = f.storage.pool) : SamePools f f' where
  sequence := by
    unfold FactoryStorage.sequence
    rw [hs]
  kept i m' h := ⟨m', by rw [← hp]; exact h, rfl⟩
  stored i h := by
    rw [hp]
    exact h

theorem SamePools.of_update {i : ℕ} {m : ArenaMetadata} {status : ArenaStatus}
    (hm : f.storage.pool i = some m) :
    SamePools f { f with storage := f.storage.savePool i { m with status := status } } where
  sequence := rfl
  kept j m' h := by
    change Function.update f.storage.pool i _ j = some m' at h
    by_cases hj : j = i
    · subst hj
      rw [Function.update_self] at h
      obtain rfl := Option.some.inj h
      exact ⟨m, hm, rfl⟩
    · rw [Function.update_of_ne hj] at h
      exact ⟨m', h, rfl⟩
  stored j h := by
    show (Function.update f.storage.pool i _ j).isSome = true
    by_cases hj : j = i
    · subst hj
      rw [Function.update_self]
      rfl
    · rw [Function.update_of_ne hj]
      exact h

/-- The metadata of the pools after a creation. -/
theorem Creates.pool {auths : List Address} {host arena : Address} {config : PoolConfig}
    (hc : Creates env auths host config f arena f') :
    f'.storage.pool = Function.update f.storage.pool (f.storage.sequence + 1)
      (some (config.metadataOf host arena (f.storage.sequence + 1) f.now)) := by
  obtain ⟨outside, w, -, -, rfl⟩ := hc.result
  rfl

theorem Creates.sequence {auths : List Address} {host arena : Address} {config : PoolConfig}
    (hc : Creates env auths host config f arena f') :
    f'.storage.sequence = f.storage.sequence + 1 := by
  obtain ⟨outside, w, -, -, rfl⟩ := hc.result
  rfl

theorem decrementActivePoolCount_pool (s : FactoryStorage) (creator : Address) :
    (s.decrementActivePoolCount creator).pool = s.pool ∧
      (s.decrementActivePoolCount creator).poolSequence = s.poolSequence ∧
      (s.decrementActivePoolCount creator).creatorStake = s.creatorStake := by
  unfold FactoryStorage.decrementActivePoolCount
  split_ifs
  · exact ⟨rfl, rfl, rfl⟩
  · exact ⟨rfl, rfl, rfl⟩

/-- A step adds a pool by `create_pool`, or keeps them. -/
theorem FactoryStep.pools (hs : FactoryStep env f a f') :
    ((∀ auths host config, a ≠ .call auths (.createPool host config)) ∧ SamePools f f') ∨
      ∃ auths host config arena, a = .call auths (.createPool host config) ∧
        Creates env auths host config f arena f' := by
  cases hs with
  | elsewhere _ _ => exact .inl ⟨by simp, .of_eq rfl rfl⟩
  | tick _ _ => exact .inl ⟨by simp, .of_eq rfl rfl⟩
  | call _ hexec =>
    cases exec_effect env _ hexec with
    | configure _ hcreate _ _ hb =>
      exact .inl ⟨fun _ host config h => hcreate host config (FactoryAction.call.inj h).2,
        .of_eq hb.poolSequence hb.pool⟩
    | @release arena record _ _ _ =>
      obtain ⟨hp, hs, -⟩ := decrementActivePoolCount_pool f.storage record.creator
      exact .inl ⟨by simp, .of_eq hs hp⟩
    | create hc => exact .inr ⟨_, _, _, _, rfl, hc⟩
    | reclaim _ _ _ => exact .inl ⟨by simp, .of_eq rfl rfl⟩
    | update hm _ => exact .inl ⟨by simp, .of_update hm⟩

/-- An entry of a history is the creation of pool `i`. -/
def CreatesPool (e : FactoryState H × FactoryAction H) (i : ℕ) (host : Address)
    (config : PoolConfig) : Prop :=
  (∃ auths, e.2 = .call auths (.createPool host config)) ∧ e.1.storage.sequence + 1 = i

/-- Pools and creations correspond. -/
structure History (tr : List (FactoryState H × FactoryAction H)) (f : FactoryState H) : Prop where
  created : ∀ i m, f.storage.pool i = some m →
    ∃ e ∈ tr, ∃ config, CreatesPool e i m.host config ∧ m.entryFee = config.entryFee
  stored : ∀ e ∈ tr, ∀ i host config, CreatesPool e i host config →
    i ≤ f.storage.sequence ∧ (f.storage.pool i).isSome = true
  unique : ∀ e ∈ tr, ∀ e' ∈ tr, ∀ i host config host' config',
    CreatesPool e i host config → CreatesPool e' i host' config' → e = e'
  whitelisted : ∀ e ∈ tr, ∀ i host config, CreatesPool e i host config →
    e.1.storage.isWhitelisted host = true ∧
      e.1.storage.isSupportedToken config.stakeToken = true ∧
      ∃ minStake, e.1.storage.minStake = some minStake ∧ minStake ≤ config.entryFee

theorem History.keep (hi : History tr f)
    (ha : ∀ auths host config, a ≠ .call auths (.createPool host config)) (hp : SamePools f f') :
    History ((f, a) :: tr) f' := by
  have hnew : ∀ i host config, ¬ CreatesPool (f, a) i host config := by
    rintro i host config ⟨⟨auths, h⟩, -⟩
    exact ha auths host config h
  have hold : ∀ e ∈ (f, a) :: tr, ∀ i host config, CreatesPool e i host config → e ∈ tr := by
    intro e he i host config hc
    rcases List.mem_cons.mp he with rfl | he
    · exact absurd hc (hnew i host config)
    · exact he
  refine ⟨fun i m' hm' => ?_, fun e he i host config hc => ?_,
    fun e he e' he' i host config host' config' hc hc' => ?_, fun e he i host config hc => ?_⟩
  · obtain ⟨m, hm, heq⟩ := hp.kept i m' hm'
    obtain ⟨e, he, config, hc, hfee⟩ := hi.created i m hm
    rw [heq]
    exact ⟨e, List.mem_cons_of_mem _ he, config, hc, hfee⟩
  · obtain ⟨hle, hsome⟩ := hi.stored e (hold e he i host config hc) i host config hc
    rw [hp.sequence]
    exact ⟨hle, hp.stored i hsome⟩
  · exact hi.unique e (hold e he _ _ _ hc) e' (hold e' he' _ _ _ hc') _ _ _ _ _ hc hc'
  · exact hi.whitelisted e (hold e he _ _ _ hc) _ _ _ hc

theorem History.create (hi : History tr f) {auths : List Address} {host arena : Address}
    {config : PoolConfig} (hc : Creates env auths host config f arena f') :
    History ((f, .call auths (.createPool host config)) :: tr) f' := by
  have hnew : CreatesPool (f, FactoryAction.call auths (.createPool host config))
      (f.storage.sequence + 1) host config := ⟨⟨auths, rfl⟩, rfl⟩
  refine ⟨fun i m hm => ?_, fun e he i host' config' hc' => ?_,
    fun e he e' he' i h₁ c₁ h₂ c₂ hc₁ hc₂ => ?_, fun e he i host' config' hc' => ?_⟩
  · rw [hc.pool] at hm
    by_cases hj : i = f.storage.sequence + 1
    · subst hj
      rw [Function.update_self] at hm
      obtain rfl := Option.some.inj hm
      exact ⟨_, List.mem_cons_self, config, hnew, rfl⟩
    · rw [Function.update_of_ne hj] at hm
      obtain ⟨e, he, config', h⟩ := hi.created i m hm
      exact ⟨e, List.mem_cons_of_mem _ he, config', h⟩
  · rw [hc.sequence, hc.pool]
    rcases List.mem_cons.mp he with rfl | he
    · obtain ⟨-, rfl⟩ := hc'
      rw [Function.update_self]
      exact ⟨le_rfl, rfl⟩
    · obtain ⟨hle, hsome⟩ := hi.stored e he i host' config' hc'
      rw [Function.update_of_ne (by omega)]
      exact ⟨by omega, hsome⟩
  · -- the new pool has a number of its own
    rcases List.mem_cons.mp he with rfl | he <;> rcases List.mem_cons.mp he' with rfl | he'
    · rfl
    · have hlt := (hi.stored e' he' _ _ _ hc₂).1
      have heq : f.storage.sequence + 1 = i := hc₁.2
      omega
    · have hlt := (hi.stored e he _ _ _ hc₁).1
      have heq : f.storage.sequence + 1 = i := hc₂.2
      omega
    · exact hi.unique e he e' he' _ _ _ _ _ hc₁ hc₂
  · rcases List.mem_cons.mp he with rfl | he
    · obtain ⟨⟨auths', h⟩, -⟩ := hc'
      cases h
      exact ⟨hc.whitelisted, hc.supported, hc.minStake⟩
    · exact hi.whitelisted e he _ _ _ hc'

theorem history_of_run {outside : H} {now : ℕ}
    (hrun : Run (FactoryStep env) (.fresh outside now) tr f) : History tr f := by
  refine hrun.history (I := History) ⟨?_, by simp, by simp, by simp⟩ (fun tr f a f' _ hi hs => ?_)
  · intro i m h
    cases h
  · rcases hs.pools with ⟨ha, hp⟩ | ⟨auths, host, config, arena, rfl, hc⟩
    · exact hi.keep ha hp
    · exact hi.create hc

/-! ## Approval -/

/-- What a pool is to have had when it was created. -/
structure Approved (s : FactoryStorage) (host : Address) (config : PoolConfig) : Prop where
  whitelisted : s.isWhitelisted host = true
  supported : s.isSupportedToken config.stakeToken = true
  minStake : ∃ minStake, s.minStake = some minStake ∧ minStake ≤ config.entryFee
  vault : s.isApprovedVault config.yieldVault = true
  oracle : s.isApprovedOracle config.oracleContract = true

/-- Every stored pool was approved in the state in which it was created. -/
def PoolsApproved (tr : List (FactoryState H × FactoryAction H)) (f : FactoryState H) : Prop :=
  ∀ i m, f.storage.pool i = some m →
    ∃ e ∈ tr, ∃ config, CreatesPool e i m.host config ∧ m.entryFee = config.entryFee ∧
      Approved e.1.storage m.host config

/-- In every run the stored pools were approved exactly when the vault and the
    oracle of every accepted configuration were in the registries. -/
theorem approved_iff {outside : H} {now : ℕ}
    (hrun : Run (FactoryStep env) (.fresh outside now) tr f) :
    PoolsApproved tr f ↔ ∀ e ∈ tr, ∀ auths host config,
      e.2 = .call auths (.createPool host config) →
        e.1.storage.isApprovedVault config.yieldVault = true ∧
          e.1.storage.isApprovedOracle config.oracleContract = true := by
  have hi := history_of_run hrun
  constructor
  · intro happ e he auths host config hcall
    have hc : CreatesPool e (e.1.storage.sequence + 1) host config := ⟨⟨auths, hcall⟩, rfl⟩
    obtain ⟨m, hm⟩ := Option.isSome_iff_exists.mp (hi.stored e he _ _ _ hc).2
    obtain ⟨e', he', config', hc', -, happ'⟩ := happ _ m hm
    obtain rfl := hi.unique e he e' he' _ _ _ _ _ hc hc'
    obtain ⟨auths', hcall'⟩ := hc'.1
    rw [hcall] at hcall'
    cases hcall'
    exact ⟨happ'.vault, happ'.oracle⟩
  · intro hall i m hm
    obtain ⟨e, he, config, hc, hfee⟩ := hi.created i m hm
    obtain ⟨hwl, hsup, hmin⟩ := hi.whitelisted e he _ _ _ hc
    obtain ⟨auths, hcall⟩ := hc.1
    obtain ⟨hvault, horacle⟩ := hall e he auths m.host config hcall
    exact ⟨e, he, config, hc, hfee, hwl, hsup, hmin, hvault, horacle⟩

theorem createdConfig_of_createsPool {e : FactoryState H × FactoryAction H} {i : ℕ}
    {host : Address} {config : PoolConfig} (hc : CreatesPool e i host config) :
    createdConfig e.2 = some config := by
  obtain ⟨⟨auths, h⟩, -⟩ := hc
  rw [h]
  rfl

/-- A pool whose vault and oracle are in the registries. -/
theorem approved_iff_sample :
    ∃ tr f, Run (FactoryStep sampleEnv) (.fresh sampleBalances 0) tr f ∧
      (f.storage.pool 1).isSome = true ∧ PoolsApproved tr f := by
  obtain ⟨tr, f, hrun, hpool, happ⟩ :=
    @exists_factoryRun _ sampleEnv (sampleSetup ++ [([⟨10⟩], .addApprovedVault ⟨2⟩),
      ([⟨10⟩], .addApprovedOracle ⟨3⟩), ([⟨11⟩], .createPool ⟨11⟩ sampleConfig)])
      (.fresh sampleBalances 0) (fun tr f => (f.storage.pool 1).isSome = true ∧
        ∀ e ∈ tr, ∀ config ∈ createdConfig e.2,
          e.1.storage.isApprovedVault config.yieldVault = true ∧
            e.1.storage.isApprovedOracle config.oracleContract = true) (by decide +kernel)
  refine ⟨tr, f, hrun, hpool, (approved_iff hrun).mpr fun e he auths host config hcall => ?_⟩
  apply happ e he config
  rw [hcall]
  rfl

/-- A pool created with a vault that the admin has removed from the registry. -/
theorem not_poolsApproved :
    ∃ tr f, Run (FactoryStep sampleEnv) (.fresh sampleBalances 0) tr f ∧ ¬ PoolsApproved tr f := by
  obtain ⟨tr, f, hrun, hpool, hnone⟩ :=
    @exists_factoryRun _ sampleEnv (sampleSetup ++ [([⟨10⟩], .addApprovedVault ⟨2⟩),
      ([⟨10⟩], .addApprovedOracle ⟨3⟩), ([⟨10⟩], .removeApprovedVault ⟨2⟩),
      ([⟨11⟩], .createPool ⟨11⟩ sampleConfig)])
      (.fresh sampleBalances 0) (fun tr f => (f.storage.pool 1).isSome = true ∧
        ∀ e ∈ tr, ∀ config ∈ createdConfig e.2,
          e.1.storage.isApprovedVault config.yieldVault = false) (by decide +kernel)
  refine ⟨tr, f, hrun, fun happ => ?_⟩
  obtain ⟨m, hm⟩ := Option.isSome_iff_exists.mp hpool
  obtain ⟨e, he, config, hc, -, happ⟩ := happ 1 m hm
  have hvault := hnone e he config (createdConfig_of_createsPool hc)
  rw [happ.vault] at hvault
  cases hvault

end InverseArena.Factory
