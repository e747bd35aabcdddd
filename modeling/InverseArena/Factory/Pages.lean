import InverseArena.Factory.Approved
import Mathlib.Algebra.Order.Floor.Div

/-!
# The pages of `get_arenas`

`get_arenas` reads the pools by their numbers, from `offset + 1` to the smaller of
the pool count and `offset + limit`. The additions are unchecked, and `limit` is
clamped before them.

Results:
* `dense_of_run`: the pools are those with the numbers up to the pool count, which
  is the number of creations.
* `Dense.pageExact_iff`, `Dense.walkExact_iff`: where pages and walks are exact.
* `getArenas_exact_iff`: the same for every reachable state.
-/

namespace InverseArena.Factory

open Host MachineInt Arena Transition

variable {H : Type} {env : FactoryEnv H} {f f' : FactoryState H} {a : FactoryAction H}
  {tr : List (FactoryState H × FactoryAction H)} {s : FactoryStorage} {n offset limit : ℕ}

/-- `MAX_PAGE_SIZE`. -/
def maxPageSize : ℕ := 50

/-- `get_arenas(offset, limit)`. -/
def getArenas (s : FactoryStorage) (offset limit : ℕ) : List ArenaMetadata :=
  let total := s.poolCount.getD 0
  let limit := min limit maxPageSize
  let start := wrapU32 (offset + 1)
  let stop := min total (wrapU32 (offset + limit))
  if start ≤ stop then (List.range' start (stop + 1 - start)).filterMap s.loadPool else []

/-- The calls that walk through `n` pools, with as many to a page as a call returns. -/
def walk (s : FactoryStorage) (n pageSize : ℕ) : List ArenaMetadata :=
  let limit := min pageSize maxPageSize
  (List.range (n ⌈/⌉ limit)).flatMap fun k => getArenas s (k * limit) pageSize

/-- Of `n` pools the page lists those after the first `offset`, at most `limit` of
    them, each with its metadata. -/
structure PageExact (s : FactoryStorage) (n offset limit : ℕ) : Prop where
  ids : (getArenas s offset limit).map (·.poolId) =
    List.range' (offset + 1) (min n (offset + min limit maxPageSize) - offset)
  stored : ∀ m ∈ getArenas s offset limit, s.pool m.poolId = some m

/-- The walk lists each of `n` pools once, in the order of their creation, with its
    metadata. -/
structure WalkExact (s : FactoryStorage) (n pageSize : ℕ) : Prop where
  ids : (walk s n pageSize).map (·.poolId) = List.range' 1 n
  stored : ∀ m ∈ walk s n pageSize, s.pool m.poolId = some m

/-- The additions do not overflow, or what they give does not matter. -/
def PageFits (n offset limit : ℕ) : Prop :=
  if offset = u32Max then n = 0 ∨ limit = 1
  else offset + min limit maxPageSize ≤ u32Max ∨ n ≤ offset

/-! ## The numbers of the pools -/

/-- The creations in a history. -/
def creations (tr : List (FactoryState H × FactoryAction H)) : ℕ :=
  tr.countP fun e => (createdConfig e.2).isSome

/-- The pools are numbered from 1 to `n`, and both counters are at `n`. -/
structure Dense (s : FactoryStorage) (n : ℕ) : Prop where
  count : s.poolCount.getD 0 = n
  sequence : s.sequence = n
  bound : n ≤ u32Max
  stored : ∀ i, (s.pool i).isSome = true ↔ 1 ≤ i ∧ i ≤ n
  poolId : ∀ i m, s.pool i = some m → m.poolId = i

theorem exec_poolCount {auths : List Address} {c : FactoryCall}
    (h : exec env auths c f = .ok f') (hc : ∀ host config, c ≠ .createPool host config) :
    f'.storage.poolCount = f.storage.poolCount := by
  cases c with
  | createPool host config => exact absurd rfl (hc host config)
  | releaseArena arena =>
    obtain ⟨-, -, record, -, rfl⟩ := releaseArena_eq_ok.mp h
    unfold FactoryStorage.decrementActivePoolCount
    split_ifs <;> rfl
  | reclaimCreatorStake arena =>
    obtain ⟨-, record, outside, -, -, rfl⟩ := reclaimCreatorStake_eq_ok.mp h
    rfl
  | updateArenaStatus i status =>
    obtain ⟨metadata, -, -, rfl⟩ := updateArenaStatus_eq_ok.mp h
    rfl
  | initializeFactory admin minStake =>
    simp only [exec, initializeFactory, Fallible.bind_eq_ok, requireAuth_eq_ok, check_eq_ok,
      Fallible.pure_eq_ok, exists_const] at h
    obtain ⟨-, -, -, rfl⟩ := h
    rfl
  | setArenaWasmHash _ | addToWhitelist _ | removeFromWhitelist _ | addApprovedVault _
  | removeApprovedVault _ | addApprovedOracle _ | removeApprovedOracle _ | addSupportedToken _
  | removeSupportedToken _ | setMaxActivePools _ | pause | unpause =>
    simp only [exec, setArenaWasmHash, addToWhitelist, removeFromWhitelist, addApprovedVault,
      removeApprovedVault, addApprovedOracle, removeApprovedOracle, addSupportedToken,
      removeSupportedToken, setMaxActivePools, pause, unpause, asAdmin_eq_ok] at h
    obtain ⟨-, rfl⟩ := h
    rfl

theorem FactoryStep.poolCount (hs : FactoryStep env f a f')
    (ha : ∀ auths host config, a ≠ .call auths (.createPool host config)) :
    f'.storage.poolCount = f.storage.poolCount := by
  cases hs with
  | elsewhere _ _ => rfl
  | tick _ _ => rfl
  | call _ hexec =>
    exact exec_poolCount hexec fun host config hc => ha _ host config (by rw [hc])

theorem Dense.keep (hd : Dense f.storage n)
    (hcount : f'.storage.poolCount = f.storage.poolCount) (hp : SamePools f f') :
    Dense f'.storage n where
  count := by rw [hcount, hd.count]
  sequence := by rw [hp.sequence, hd.sequence]
  bound := hd.bound
  stored i := by
    rw [← hd.stored i]
    constructor
    · intro h
      obtain ⟨m', hm'⟩ := Option.isSome_iff_exists.mp h
      obtain ⟨m, hm, -⟩ := hp.kept i m' hm'
      rw [hm]
      rfl
    · exact hp.stored i
  poolId i m' h := by
    obtain ⟨m, hm, heq⟩ := hp.kept i m' h
    rw [heq]
    exact hd.poolId i m hm

/-- A creation takes the next number in both counters. -/
theorem Dense.create {auths : List Address} {host arena : Address} {config : PoolConfig}
    (hd : Dense f.storage n) (hc : Creates env auths host config f arena f') :
    Dense f'.storage (n + 1) where
  count := by
    obtain ⟨outside, w, -, -, rfl⟩ := hc.result
    have hbound := hc.numbered
    rw [hd.sequence] at hbound
    change (f.storage.poolCount.getD 0 + 1) % (u32Max + 1) = n + 1
    rw [hd.count]
    exact Nat.mod_eq_of_lt (Nat.lt_succ_of_le hbound)
  sequence := by rw [hc.sequence, hd.sequence]
  bound := by
    have hbound := hc.numbered
    rwa [hd.sequence] at hbound
  stored i := by
    rw [hc.pool, hd.sequence]
    by_cases hi : i = n + 1
    · subst hi
      simp
    · rw [Function.update_of_ne hi, hd.stored i]
      omega
  poolId i m h := by
    rw [hc.pool, hd.sequence] at h
    by_cases hi : i = n + 1
    · subst hi
      rw [Function.update_self] at h
      obtain rfl := Option.some.inj h
      rfl
    · rw [Function.update_of_ne hi] at h
      exact hd.poolId i m h

/-- In every run the pools are numbered through. -/
theorem dense_of_run {outside : H} {now : ℕ}
    (hrun : Run (FactoryStep env) (.fresh outside now) tr f) :
    Dense f.storage (creations tr) := by
  refine hrun.history (I := fun tr f => Dense f.storage (creations tr))
    ⟨rfl, rfl, Nat.zero_le _, fun i => ?_, fun i m h => ?_⟩ fun tr f a f' _ hd hs => ?_
  · change false = true ↔ 1 ≤ i ∧ i ≤ 0
    simp
    omega
  · cases h
  · rcases hs.pools with ⟨ha, hp⟩ | ⟨auths, host, config, arena, rfl, hc⟩
    · have hnone : (createdConfig a).isSome = false := by
        cases a with
        | call auths c => cases c <;> first | rfl | exact absurd rfl (ha _ _ _)
        | elsewhere _ _ => rfl
        | tick _ => rfl
      have hsame : creations ((f, a) :: tr) = creations tr :=
        List.countP_cons_of_neg (by simp [hnone])
      rw [hsame]
      exact hd.keep (hs.poolCount ha) hp
    · have hmore : creations ((f, .call auths (.createPool host config)) :: tr) =
          creations tr + 1 := List.countP_cons_of_pos rfl
      rw [hmore]
      exact hd.create hc

/-! ## What the pages list -/

/-- Reading numbered pools gives those among the numbers read. -/
theorem Dense.map_filterMap (hd : Dense s n) (l : List ℕ) :
    (l.filterMap s.loadPool).map (·.poolId) = l.filter fun i => 1 ≤ i ∧ i ≤ n := by
  induction l with
  | nil => rfl
  | cons i l ih =>
    cases hm : s.loadPool i with
    | none =>
      have hnot : ¬ (1 ≤ i ∧ i ≤ n) := by
        rw [← hd.stored i, show s.pool i = none from hm]
        simp
      rw [List.filterMap_cons_none hm, List.filter_cons_of_neg (by simpa using hnot), ih]
    | some m =>
      have hin : 1 ≤ i ∧ i ≤ n := (hd.stored i).mp (Option.isSome_iff_exists.mpr ⟨m, hm⟩)
      rw [List.filterMap_cons_some hm, List.filter_cons_of_pos (by simpa using hin),
        List.map_cons, hd.poolId i m hm, ih]

theorem Dense.stored_of_mem (hd : Dense s n) {m : ArenaMetadata}
    (hm : m ∈ getArenas s offset limit) : s.pool m.poolId = some m := by
  unfold getArenas at hm
  dsimp only at hm
  split_ifs at hm
  · obtain ⟨i, -, hi⟩ := List.mem_filterMap.mp hm
    rw [hd.poolId i m hi]
    exact hi
  · cases hm

/-- The numbers from `start` to `stop` of the pools there are. -/
theorem Dense.ids_getArenas (hd : Dense s n) :
    (getArenas s offset limit).map (·.poolId) =
      List.range' (max 1 (wrapU32 (offset + 1)))
        (min n (wrapU32 (offset + min limit maxPageSize)) + 1 -
          max 1 (wrapU32 (offset + 1))) := by
  unfold getArenas
  dsimp only
  rw [hd.count]
  generalize wrapU32 (offset + 1) = start
  generalize hstop : min n (wrapU32 (offset + min limit maxPageSize)) = stop
  have hle : stop ≤ n := by omega
  split_ifs with h
  · rw [hd.map_filterMap]
    rcases Nat.eq_zero_or_pos start with rfl | hpos
    · -- number 0 is read and is not there
      rw [show stop + 1 - 0 = stop + 1 by omega, List.range'_succ,
        List.filter_cons_of_neg (by simp), List.filter_eq_self.mpr]
      · rfl
      · intro i hi
        have := List.mem_range'_1.mp hi
        simp
        omega
    · rw [max_eq_right hpos, List.filter_eq_self.mpr]
      intro i hi
      have := List.mem_range'_1.mp hi
      simp
      omega
  · rw [show stop + 1 - max 1 start = 0 by omega]
    rfl

/-- A call whose additions do not overflow. -/
theorem Dense.ids_of_le (hd : Dense s n) (h : offset + min limit maxPageSize ≤ u32Max)
    (hne : offset < u32Max) :
    (getArenas s offset limit).map (·.poolId) =
      List.range' (offset + 1) (min n (offset + min limit maxPageSize) - offset) := by
  rw [hd.ids_getArenas, wrapU32_of_le h, wrapU32_of_le (Nat.succ_le_of_lt hne),
    max_eq_right (by omega)]
  congr 1
  omega

/-- A call whose last number overflows lists nothing. -/
theorem Dense.ids_of_lt (hd : Dense s n) (h : u32Max < offset + min limit maxPageSize)
    (hne : offset < u32Max) : (getArenas s offset limit).map (·.poolId) = [] := by
  have hpage : min limit maxPageSize ≤ 50 := min_le_right _ _
  have hlarge : 50 ≤ u32Max := by decide
  rw [hd.ids_getArenas, wrapU32_of_lt h (by omega), wrapU32_of_le (Nat.succ_le_of_lt hne),
    max_eq_right (by omega)]
  apply List.range'_eq_nil_iff.mpr
  omega

/-- At the last offset the first number overflows: the page begins anew. -/
theorem Dense.ids_of_eq (hd : Dense s n) :
    (getArenas s u32Max limit).map (·.poolId) =
      List.range' 1 (if limit = 0 then n else min n (min limit maxPageSize - 1)) := by
  have hbound := hd.bound
  have hpage : min limit maxPageSize ≤ 50 := min_le_right _ _
  have hlarge : 50 ≤ u32Max := by decide
  rw [hd.ids_getArenas, wrapU32_of_lt (Nat.lt_succ_self _) (by omega), Nat.sub_self,
    max_eq_left (Nat.zero_le 1), Nat.add_sub_cancel]
  split_ifs with hlimit
  · subst hlimit
    rw [Nat.zero_min, wrapU32_of_le (by omega), Nat.add_zero, min_eq_left hbound]
  · have hpos : 0 < min limit maxPageSize := lt_min (by omega) (by decide)
    rw [wrapU32_of_lt (by omega) (by omega),
      show u32Max + min limit maxPageSize - (u32Max + 1) = min limit maxPageSize - 1 by omega]

/-- When a page is exact. -/
theorem Dense.pageExact_iff (hd : Dense s n) (hoffset : offset ≤ u32Max) :
    PageExact s n offset limit ↔ PageFits n offset limit := by
  have hiff : PageExact s n offset limit ↔ (getArenas s offset limit).map (·.poolId) =
      List.range' (offset + 1) (min n (offset + min limit maxPageSize) - offset) :=
    ⟨fun h => h.ids, fun h => ⟨h, fun m hm => hd.stored_of_mem hm⟩⟩
  have hbound := hd.bound
  rw [hiff]
  unfold PageFits
  split_ifs with hlast
  · subst hlast
    rw [hd.ids_of_eq, show min n (u32Max + min limit maxPageSize) - u32Max = 0 by omega,
      List.range'_zero, List.range'_eq_nil_iff]
    unfold maxPageSize
    split_ifs <;> omega
  · by_cases hfits : offset + min limit maxPageSize ≤ u32Max
    · exact iff_of_true (hd.ids_of_le hfits (by omega)) (.inl hfits)
    · rw [hd.ids_of_lt (by omega) (by omega), eq_comm, List.range'_eq_nil_iff]
      omega

/-! ## Walks -/

/-- The first `pages` pages, none of which overflows. -/
theorem Dense.ids_pages (hd : Dense s n) {limit : ℕ} (hlimit : 0 < min limit maxPageSize)
    (pages : ℕ) (hfits : pages * min limit maxPageSize ≤ u32Max) :
    ((List.range pages).flatMap fun k => getArenas s (k * min limit maxPageSize) limit).map
      (·.poolId) = List.range' 1 (min n (pages * min limit maxPageSize)) := by
  induction pages with
  | zero => simp
  | succ pages ih =>
    rw [Nat.succ_mul] at hfits ⊢
    rw [List.range_succ, List.flatMap_append, List.map_append, ih (by omega),
      List.flatMap_singleton, hd.ids_of_le hfits (by omega)]
    generalize pages * min limit maxPageSize = offset
    by_cases hn : n ≤ offset
    · rw [show min n (offset + min limit maxPageSize) - offset = 0 by omega, List.range'_zero,
        List.append_nil]
      congr 1
      omega
    · rw [min_eq_right (by omega : offset ≤ n), Nat.add_comm offset 1, List.range'_append_1]
      congr 1
      omega

/-- When a walk is exact: its last page must not overflow. -/
theorem Dense.walkExact_iff (hd : Dense s n) {pageSize : ℕ} (hsize : 0 < pageSize) :
    WalkExact s n pageSize ↔
      n ⌈/⌉ min pageSize maxPageSize * min pageSize maxPageSize ≤ u32Max := by
  have hlimit : 0 < min pageSize maxPageSize := lt_min hsize (by decide)
  have hcover : n ≤ n ⌈/⌉ min pageSize maxPageSize * min pageSize maxPageSize := by
    rw [Nat.mul_comm]
    exact (ceilDiv_le_iff_le_mul hlimit).mp le_rfl
  have hstored : ∀ m ∈ walk s n pageSize, s.pool m.poolId = some m := by
    intro m hm
    obtain ⟨k, -, hk⟩ := List.mem_flatMap.mp hm
    exact hd.stored_of_mem hk
  constructor
  · intro hexact
    by_contra hover
    have hids := hexact.ids
    unfold walk at hids
    dsimp only at hids
    cases hpages : n ⌈/⌉ min pageSize maxPageSize with
    | zero =>
      rw [hpages, Nat.zero_mul] at hover
      exact hover (Nat.zero_le _)
    | succ pages =>
      -- the page before the last ends short of `n`, and the last one is empty
      have hshort : pages * min pageSize maxPageSize < n := by
        rw [Nat.mul_comm]
        by_contra hge
        have := (ceilDiv_le_iff_le_mul hlimit).mpr (not_lt.mp hge)
        omega
      have hbound := hd.bound
      rw [hpages, Nat.succ_mul] at hover
      rw [hpages, List.range_succ, List.flatMap_append, List.map_append,
        hd.ids_pages hlimit pages (by omega), List.flatMap_singleton,
        hd.ids_of_lt (not_le.mp hover) (by omega), List.append_nil] at hids
      have hlen := congrArg List.length hids
      rw [List.length_range', List.length_range'] at hlen
      omega
  · intro hfits
    have hids := hd.ids_pages hlimit _ hfits
    rw [min_eq_left hcover] at hids
    exact ⟨hids, hstored⟩

/-- In every reachable state, with `n` pools created: which pages and which walks
    are exact. -/
theorem getArenas_exact_iff {outside : H} {now : ℕ}
    (hrun : Run (FactoryStep env) (.fresh outside now) tr f) :
    (∀ offset ≤ u32Max, ∀ limit ≤ u32Max, PageExact f.storage (creations tr) offset limit ↔
      PageFits (creations tr) offset limit) ∧
    ∀ pageSize ≤ u32Max, 0 < pageSize → (WalkExact f.storage (creations tr) pageSize ↔
      creations tr ⌈/⌉ min pageSize maxPageSize * min pageSize maxPageSize ≤ u32Max) :=
  ⟨fun _ hoffset _ _ => (dense_of_run hrun).pageExact_iff hoffset,
    fun _ _ hsize => (dense_of_run hrun).walkExact_iff hsize⟩

/-- A factory with one pool, which every walk lists. -/
theorem getArenas_exact_one :
    ∃ tr f, Run (FactoryStep sampleEnv) (.fresh sampleBalances 0) tr f ∧ creations tr = 1 ∧
      WalkExact f.storage 1 7 := by
  obtain ⟨tr, f, hrun, hone⟩ :=
    @exists_factoryRun _ sampleEnv (sampleSetup ++ [([⟨11⟩], .createPool ⟨11⟩ sampleConfig)])
      (.fresh sampleBalances 0) (fun tr _ => creations tr = 1) (by decide +kernel)
  have hwalk := ((getArenas_exact_iff hrun).2 7 (by decide) (by decide)).mpr
    (by rw [hone]; decide)
  rw [hone] at hwalk
  exact ⟨tr, f, hrun, hone, hwalk⟩

/-- A factory with one pool, which is listed again after the last offset. -/
theorem not_getArenas_exact :
    ∃ tr f, Run (FactoryStep sampleEnv) (.fresh sampleBalances 0) tr f ∧ creations tr = 1 ∧
      ¬ PageExact f.storage (creations tr) u32Max 0 := by
  obtain ⟨tr, f, hrun, hone, hlisted⟩ :=
    @exists_factoryRun _ sampleEnv (sampleSetup ++ [([⟨11⟩], .createPool ⟨11⟩ sampleConfig)])
      (.fresh sampleBalances 0) (fun tr f => creations tr = 1 ∧
        (getArenas f.storage u32Max 0).map (·.poolId) = [1]) (by decide +kernel)
  refine ⟨tr, f, hrun, hone, fun hexact => ?_⟩
  have hids := hexact.ids
  rw [hlisted, hone] at hids
  cases hids

end InverseArena.Factory
