import InverseArena.Factory.ActivePools

/-!
# The factory and the arenas it deployed

The arena contract declares the factory's `release_arena`,
`reclaim_creator_stake` and `update_arena_status` and calls none of them, and
the factory accepts them only from the arena.

Results:
* `Standing.step`: the factory's books stay as `create_pool` has written them.
* `agree_iff`: the factory agrees with its arenas exactly as long as none of
  them has ended.
-/

namespace InverseArena.Factory

open Host MachineInt Arena Transition

variable {H : Type} {env : FactoryEnv H} {f f' : FactoryState H} {auths : List Address}

/-! ## The composition -/

/-- What can happen: a call of the factory, a call of a deployed arena, a change
    of their surroundings, the passing of time. -/
inductive SystemAction (H : Type) where
  | factory (auths : List Address) (c : FactoryCall)
  | arena (arena : Address) (auths : List Address) (c : Call)
  | external (outside : H)
  | tick (time : ℕ)

/-- One step. A contract authorizes the calls it makes itself; the factory and
    the arenas make no calls of the factory, so none of them authorizes one. -/
inductive SystemStep (env : FactoryEnv H) :
    FactoryState H → SystemAction H → FactoryState H → Prop
  | factory {f f' : FactoryState H} {auths c} : env.here ∉ auths →
      (∀ x ∈ auths, f.arenas x = none) → exec env auths c f = .ok f' →
      SystemStep env f (.factory auths c) f'
  | arena {f : FactoryState H} {x i auths c w} : f.arenas x = some i →
      (∀ y ∈ auths, env.network.mayAuthorize y) →
      Arena.exec (env.arenaEnv x) auths c (i.world f.outside f.now) = .ok w →
      SystemStep env f (.arena x auths c) { f with
        arenas := Function.update f.arenas x (some (.ofWorld w))
        outside := w.outside }
  | external {f : FactoryState H} {outside} : env.network.evolves f.now f.outside outside →
      SystemStep env f (.external outside) { f with outside := outside }
  | tick {f : FactoryState H} {time} : f.now ≤ time → time ≤ u64Max →
      SystemStep env f (.tick time) { f with now := time }

/-! ## The law -/

/-- The arena deployed at `x` is `Settled` or `Cancelled`. -/
def Ended (f : FactoryState H) (x : Address) : Bool :=
  match f.arenas x with
  | some i => i.storage.config.any fun config =>
    config.state = .Settled ∨ config.state = .Cancelled
  | none => false

/-- Whether pool `i` is one of `host`. -/
def isPoolOf (f : FactoryState H) (host : Address) (i : ℕ) : Bool :=
  (f.storage.pool i).any fun m => m.host = host

/-- Whether the arena of pool `i` has ended. -/
def hasEnded (f : FactoryState H) (i : ℕ) : Bool :=
  (f.storage.pool i).any fun m => Ended f m.arenaAddress

/-- The ids given to pools so far. -/
def poolIds (f : FactoryState H) : List ℕ := List.range' 1 f.storage.sequence

/-- The pools of `host`. -/
def poolsOf (f : FactoryState H) (host : Address) : ℕ :=
  (poolIds f).countP (isPoolOf f host)

/-- The pools of `host` whose arenas have not ended. -/
def openPoolsOf (f : FactoryState H) (host : Address) : ℕ :=
  (poolIds f).countP fun i => isPoolOf f host i && !hasEnded f i

/-- Once an arena has ended, its creator stake has been returned, its pool is
    finished or cancelled, and its host is charged with open pools only. -/
def Agree (f : FactoryState H) : Prop :=
  ∀ i m, f.storage.pool i = some m → Ended f m.arenaAddress = true →
    f.storage.creatorStake m.arenaAddress = none ∧
      (m.status = .Finished ∨ m.status = .Cancelled) ∧
      f.storage.loadActivePoolCount m.host = openPoolsOf f m.host

/-! ## The books stand -/

/-- Nothing has been released, reclaimed or updated. -/
structure Standing (f : FactoryState H) : Prop where
  pools : ∀ i m, f.storage.pool i = some m → i ∈ poolIds f ∧ m.status = .Active ∧
    ∃ record, f.storage.creatorStake m.arenaAddress = some record ∧ record.creator = m.host ∧
      record.amount = m.entryFee
  stakes : ∀ x record, f.storage.creatorStake x = some record → (f.arenas x).isSome = true
  count : ∀ host, f.storage.loadActivePoolCount host = poolsOf f host

theorem poolsOf_congr (hp : f'.storage.pool = f.storage.pool)
    (hs : f'.storage.sequence = f.storage.sequence) (host : Address) :
    poolsOf f' host = poolsOf f host := by
  unfold poolsOf poolIds isPoolOf
  rw [hp, hs]

/-- A change of the surroundings and inside the arenas. -/
theorem Standing.frame (hi : Standing f) (hstorage : f'.storage = f.storage)
    (harenas : ∀ x, (f'.arenas x).isSome = (f.arenas x).isSome) : Standing f' where
  pools := by
    unfold poolIds
    rw [hstorage]
    exact hi.pools
  stakes x record h := by
    rw [hstorage] at h
    rw [harenas]
    exact hi.stakes x record h
  count host := by
    have hpools : poolsOf f' host = poolsOf f host :=
      poolsOf_congr (by rw [hstorage]) (by rw [hstorage]) host
    rw [hpools, ← hi.count, hstorage]

theorem Standing.sameBooks (hi : Standing f) (hb : SameBooks f f') : Standing f' := by
  have hs : f'.storage.sequence = f.storage.sequence := by
    unfold FactoryStorage.sequence
    rw [hb.poolSequence]
  refine ⟨?_, ?_, fun host => ?_⟩
  · unfold poolIds
    rw [hb.pool, hb.creatorStake, hs]
    exact hi.pools
  · rw [hb.creatorStake, hb.arenas]
    exact hi.stakes
  · rw [poolsOf_congr hb.pool hs, ← hi.count]
    unfold FactoryStorage.loadActivePoolCount
    rw [hb.activePoolCount]

theorem Creates.poolIds {host arena : Address} {config : PoolConfig}
    (hc : Creates env auths host config f arena f') :
    poolIds f' = poolIds f ++ [f.storage.sequence + 1] := by
  unfold Factory.poolIds
  rw [hc.sequence, List.range'_1_concat, Nat.add_comm 1]

theorem Standing.create {host arena : Address} {config : PoolConfig} (hi : Standing f)
    (hc : Creates env auths host config f arena f') : Standing f' := by
  -- the new pool has a new number, and its arena a new address
  have hold : ∀ i ∈ poolIds f, i ≠ f.storage.sequence + 1 := by
    intro i hmem
    have := (List.mem_range'_1.mp hmem).2
    omega
  have hvacant := creatorStake_of_vacant hi.stakes hc.vacant
  refine ⟨fun i m hm => ?_, fun x record hx => ?_, fun h => ?_⟩
  · rw [hc.pool] at hm
    rw [hc.poolIds, hc.creatorStake]
    by_cases hnew : i = f.storage.sequence + 1
    · subst hnew
      rw [Function.update_self] at hm
      obtain rfl := Option.some.inj hm
      exact ⟨by simp, rfl, config.stakeOf host, Function.update_self _ _ _, rfl, rfl⟩
    · rw [Function.update_of_ne hnew] at hm
      obtain ⟨hmem, hactive, record, hr, hrest⟩ := hi.pools i m hm
      refine ⟨List.mem_append_left _ hmem, hactive, record, ?_, hrest⟩
      rw [Function.update_of_ne]
      · exact hr
      · intro heq
        rw [heq, hvacant] at hr
        cases hr
  · rw [hc.arenas]
    rw [hc.creatorStake] at hx
    by_cases hxa : x = arena
    · simp [hxa]
    · rw [Function.update_of_ne hxa] at hx
      simp [hi.stakes x record hx]
  · have hpools : poolsOf f' h = poolsOf f h + if h = host then 1 else 0 := by
      unfold poolsOf
      rw [hc.poolIds, List.countP_append, List.countP_singleton]
      congr 1
      · apply List.countP_congr
        intro i hmem
        unfold isPoolOf
        rw [hc.pool, Function.update_of_ne (hold i hmem)]
      · unfold isPoolOf
        rw [hc.pool, Function.update_self]
        simp [PoolConfig.metadataOf, eq_comm]
    have hle : poolsOf f host ≤ (poolIds f).length := List.countP_le_length
    have hlt : f.storage.loadActivePoolCount host < u32Max := by
      have hnum := hc.numbered
      unfold Factory.poolIds at hle
      rw [List.length_range'] at hle
      rw [hi.count]
      omega
    rw [hpools, hc.activePoolCount, satAddU32_of_lt hlt, ← hi.count]
    split_ifs with hh
    · rw [hh]
    · rfl

/-- Every step leaves the books as `create_pool` has written them. -/
theorem Standing.step {a : SystemAction H} (hi : Standing f) (hs : SystemStep env f a f') :
    Standing f' := by
  cases hs with
  | external _ => exact hi.frame rfl fun _ => rfl
  | tick _ _ => exact hi.frame rfl fun _ => rfl
  | @arena x i _ _ w hx _ _ =>
    refine hi.frame rfl fun y => ?_
    show (Function.update f.arenas x _ y).isSome = _
    by_cases hy : y = x
    · subst hy
      rw [Function.update_self, hx]
      rfl
    · rw [Function.update_of_ne hy]
  | @factory _ auths c _ hauths hexec =>
    -- a call that an arena must authorize cannot succeed
    have hsilent : ∀ x record, x ∈ auths → f.storage.creatorStake x = some record → False := by
      intro x record hx hr
      have hsome := hi.stakes x record hr
      rw [hauths x hx] at hsome
      cases hsome
    cases exec_effect env _ hexec with
    | configure _ _ _ _ hb => exact hi.sameBooks hb
    | create hc => exact hi.create hc
    | release _ hauth hr => exact (hsilent _ _ hauth hr).elim
    | reclaim hauth hr _ => exact (hsilent _ _ hauth hr).elim
    | update hm hauth =>
      obtain ⟨-, -, record, hr, -⟩ := hi.pools _ _ hm
      exact (hsilent _ _ hauth hr).elim

theorem standing_of_run {outside : H} {now : ℕ} {tr : List (FactoryState H × SystemAction H)}
    (hrun : Run (SystemStep env) (.fresh outside now) tr f) : Standing f := by
  refine hrun.invariant (fun _ _ _ hi hs => hi.step hs) ⟨fun i m h => ?_, fun x r h => ?_,
    fun host => rfl⟩
  · cases h
  · cases h

/-! ## Agreement -/

theorem countP_lt_countP {α : Type*} {p q : α → Bool} {l : List α} {x : α} (hx : x ∈ l)
    (hp : p x = true) (hq : q x = false) : l.countP (fun y => p y && q y) < l.countP p := by
  induction l with
  | nil => cases hx
  | cons y l ih =>
    rw [List.countP_cons, List.countP_cons]
    rcases List.mem_cons.mp hx with rfl | hx
    · have hle : l.countP (fun y => p y && q y) ≤ l.countP p :=
        List.countP_mono_left fun z _ hz => (Bool.and_eq_true _ _ ▸ hz).1
      rw [hp, hq]
      simp
      omega
    · have hlt := ih hx
      have hle : (if (p y && q y) = true then 1 else 0) ≤ if p y = true then 1 else 0 := by
        cases p y <;> cases q y <;> simp
      omega

/-- The factory knows nothing of an arena that has ended: its stake is still
    recorded, its pool still active, and its host still charged with it. -/
theorem Standing.ended (hi : Standing f) {i : ℕ} {m : ArenaMetadata}
    (hm : f.storage.pool i = some m) (hended : Ended f m.arenaAddress = true) :
    f.storage.creatorStake m.arenaAddress ≠ none ∧ m.status = .Active ∧
      openPoolsOf f m.host < f.storage.loadActivePoolCount m.host := by
  obtain ⟨hmem, hactive, record, hr, -⟩ := hi.pools i m hm
  refine ⟨by rw [hr]; simp, hactive, ?_⟩
  rw [hi.count]
  apply countP_lt_countP hmem
  · unfold isPoolOf
    rw [hm]
    simp
  · unfold hasEnded
    rw [hm]
    simp [hended]

/-- In every run the factory agrees with its arenas exactly when none of them has
    ended; for one that has, every part of the law fails. -/
theorem agree_iff {outside : H} {now : ℕ} {tr : List (FactoryState H × SystemAction H)}
    (hrun : Run (SystemStep env) (.fresh outside now) tr f) :
    (Agree f ↔ ∀ i m, f.storage.pool i = some m → Ended f m.arenaAddress = false) ∧
      ∀ i m, f.storage.pool i = some m → Ended f m.arenaAddress = true →
        f.storage.creatorStake m.arenaAddress ≠ none ∧
          ¬ (m.status = .Finished ∨ m.status = .Cancelled) ∧
          f.storage.loadActivePoolCount m.host ≠ openPoolsOf f m.host := by
  have hi := standing_of_run hrun
  refine ⟨⟨fun h i m hm => ?_, fun h i m hm hended => ?_⟩, fun i m hm hended => ?_⟩
  · by_contra hne
    have hended : Ended f m.arenaAddress = true := by simpa using hne
    exact (hi.ended hm hended).1 (h i m hm hended).1
  · rw [h i m hm] at hended
    cases hended
  · obtain ⟨hstake, hactive, hlt⟩ := hi.ended hm hended
    refine ⟨hstake, ?_, by omega⟩
    rw [hactive]
    rintro (h | h)
    · cases h
    · cases h

/-! ## A cancelled arena -/

/-- Executes a call of the factory or of a deployed arena. -/
def performSystem (env : FactoryEnv H) [DecidablePred env.network.mayAuthorize]
    (m : SystemAction H) (f : FactoryState H) : Option (SystemAction H × FactoryState H) :=
  match m with
  | .factory auths c =>
    if env.here ∉ auths ∧ ∀ x ∈ auths, (f.arenas x).isNone = true then
      (exec env auths c f).toOption.map fun f' => (m, f')
    else none
  | .arena x auths c =>
    if ∀ y ∈ auths, env.network.mayAuthorize y then
      (f.arenas x).bind fun i =>
        (Arena.exec (env.arenaEnv x) auths c (i.world f.outside f.now)).toOption.map fun w =>
          (m, { f with
            arenas := Function.update f.arenas x (some (.ofWorld w))
            outside := w.outside })
    else none
  | .external _ => none
  | .tick _ => none

theorem performSystem_step [DecidablePred env.network.mayAuthorize] (m : SystemAction H)
    (f : FactoryState H) (a : SystemAction H) (f' : FactoryState H)
    (h : performSystem env m f = some (a, f')) : SystemStep env f a f' := by
  cases m with
  | factory auths c =>
    unfold performSystem at h
    dsimp only at h
    split_ifs at h with hauths
    obtain ⟨f₁, hexec, heq⟩ := Option.map_eq_some_iff.mp h
    cases heq
    exact .factory hauths.1 (fun x hx => Option.isNone_iff_eq_none.mp (hauths.2 x hx))
      (Fallible.toOption_eq_some.mp hexec)
  | arena x auths c =>
    unfold performSystem at h
    dsimp only at h
    split_ifs at h with hauths
    obtain ⟨i, hx, hrest⟩ := Option.bind_eq_some_iff.mp h
    obtain ⟨w, hexec, heq⟩ := Option.map_eq_some_iff.mp hrest
    cases heq
    exact .arena hx hauths (Fallible.toOption_eq_some.mp hexec)
  | external _ => cases h
  | tick _ => cases h

instance : DecidablePred sampleEnv.network.mayAuthorize := fun a =>
  inferInstanceAs (Decidable (a.id < 100))

/-- Host 11 creates a pool and cancels its arena, 101. -/
def sampleCancelled : List (SystemAction Tokens) :=
  (sampleSetup.map fun c => .factory c.1 c.2) ++
    [.factory [⟨11⟩] (.createPool ⟨11⟩ sampleConfig), .arena ⟨101⟩ [⟨11⟩] .cancelArena]

theorem exists_cancelled :
    ∃ tr f, Run (SystemStep sampleEnv) (.fresh sampleBalances 0) tr f ∧
      f.storage.pool 1 = some (sampleConfig.metadataOf ⟨11⟩ ⟨101⟩ 1 0) ∧
      Ended f ⟨101⟩ = true ∧ (f.storage.creatorStake ⟨101⟩).isSome = true ∧
      f.storage.isPaused = false := by
  have hreplay : ∃ r ∈ replay (performSystem sampleEnv) sampleCancelled []
      (.fresh sampleBalances 0),
      r.2.storage.pool 1 = some (sampleConfig.metadataOf ⟨11⟩ ⟨101⟩ 1 0) ∧
      Ended r.2 ⟨101⟩ = true ∧ (r.2.storage.creatorStake ⟨101⟩).isSome = true ∧
      r.2.storage.isPaused = false := by
    decide +kernel
  exact exists_run_of_replay performSystem_step hreplay

/-- The creator stake of the cancelled arena has not been returned. -/
theorem not_agree :
    ∃ tr f, Run (SystemStep sampleEnv) (.fresh sampleBalances 0) tr f ∧
      f.storage.isPaused = false ∧ ¬ Agree f := by
  obtain ⟨tr, f, hrun, hpool, hended, hstake, hpaused⟩ := exists_cancelled
  refine ⟨tr, f, hrun, hpaused, fun h => ?_⟩
  have hnone : f.storage.creatorStake ⟨101⟩ = none := (h 1 _ hpool hended).1
  rw [hnone] at hstake
  cases hstake

theorem agree_iff_cancelled :
    ∃ tr f, Run (SystemStep sampleEnv) (.fresh sampleBalances 0) tr f ∧ ∃ m : ArenaMetadata,
      Ended f m.arenaAddress = true ∧ ¬ (m.status = .Finished ∨ m.status = .Cancelled) := by
  obtain ⟨tr, f, hrun, hpool, hended, -⟩ := exists_cancelled
  exact ⟨tr, f, hrun, _, hended, ((agree_iff hrun).2 1 _ hpool hended).2.1⟩

end InverseArena.Factory
