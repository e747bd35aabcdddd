import InverseArena.Factory.Approved

/-!
# The active pools of a host

`ActivePoolCount(host)` is meant to be the number of the host's arenas that have
not been released. A release leaves no trace of itself, and needs the stake
record, which `reclaim_creator_stake` deletes.

Results:
* `Created.step`: what a run has created, recorded and released.
* `countsRight_iff`: the count is right all along a run exactly when no arena
  is released again while its host has others, and none is reclaimed before it
  is released.
-/

namespace InverseArena.Factory

open Host MachineInt Arena Transition

variable {H : Type} {env : FactoryEnv H} {f f' : FactoryState H} {a : FactoryAction H}
  {tr : List (FactoryState H × FactoryAction H)} {auths : List Address}

/-! ## What a history says -/

/-- The host and the arena of a creation. -/
def createdArena (env : FactoryEnv H) (e : FactoryState H × FactoryAction H) :
    Option (Address × Address) :=
  match e.2 with
  | .call _ (.createPool host _) =>
    some (host, env.address (saltForPool (e.1.storage.sequence + 1)))
  | _ => none

/-- The hosts and arenas of the creations of a history. -/
def created (env : FactoryEnv H) (tr : List (FactoryState H × FactoryAction H)) :
    List (Address × Address) := tr.filterMap (createdArena env)

/-- The arena a step releases. -/
def releasedArena (e : FactoryState H × FactoryAction H) : Option Address :=
  match e.2 with
  | .call _ (.releaseArena arena) => some arena
  | _ => none

/-- The arenas released in a history. -/
def released (tr : List (FactoryState H × FactoryAction H)) : List Address :=
  tr.filterMap releasedArena

/-- How many arenas of `host` have been created and not released. -/
def unreleased (env : FactoryEnv H) (tr : List (FactoryState H × FactoryAction H))
    (host : Address) : ℕ :=
  (created env tr).countP fun p => p.1 = host ∧ p.2 ∉ released tr

/-- Excluding one more element by its key removes it from a count. -/
theorem countP_exclude {α β : Type*} [DecidableEq β] {key : α → β} {q : α → Bool} {x : α} :
    ∀ {l : List α}, (l.map key).Nodup → x ∈ l →
      l.countP (fun y => q y && decide (key y ≠ key x)) + (if q x = true then 1 else 0) =
        l.countP q := by
  intro l
  induction l with
  | nil => intro _ hx; cases hx
  | cons y l ih =>
    intro hnd hx
    rw [List.map_cons] at hnd
    obtain ⟨hfresh, hnd'⟩ := List.nodup_cons.mp hnd
    rw [List.countP_cons, List.countP_cons]
    rcases List.mem_cons.mp hx with rfl | hx
    · -- the others have other keys
      have hrest : l.countP (fun y => q y && decide (key y ≠ key x)) = l.countP q := by
        apply List.countP_congr
        intro z hz
        have hne : key z ≠ key x := by
          intro h
          exact hfresh (h ▸ List.mem_map_of_mem hz)
        simp [hne]
      rw [hrest]
      simp
    · have hne : key y ≠ key x := by
        intro h
        exact hfresh (h ▸ List.mem_map_of_mem hx)
      have hrest := ih hnd' hx
      rw [decide_eq_true hne, Bool.and_true]
      omega

/-! ## What a step does to the counts -/

theorem loadActivePoolCount_save (s : FactoryStorage) (creator host : Address) (count : ℕ) :
    (s.saveActivePoolCount creator count).loadActivePoolCount host =
      if host = creator then count else s.loadActivePoolCount host := by
  unfold FactoryStorage.loadActivePoolCount FactoryStorage.saveActivePoolCount
  by_cases h : host = creator
  · subst h
    simp
  · simp [h]

theorem loadActivePoolCount_decrement (s : FactoryStorage) (creator host : Address) :
    (s.decrementActivePoolCount creator).loadActivePoolCount host =
      if host = creator then s.loadActivePoolCount host - 1 else s.loadActivePoolCount host := by
  unfold FactoryStorage.decrementActivePoolCount
  split_ifs with hpos hhost hhost
  · rw [loadActivePoolCount_save, if_pos hhost, hhost]
  · rw [loadActivePoolCount_save, if_neg hhost]
  · subst hhost
    omega
  · rfl

/-- A release of an arena whose host has no active pools left changes nothing. -/
theorem decrementActivePoolCount_zero {s : FactoryStorage} {creator : Address}
    (h : s.loadActivePoolCount creator = 0) : s.decrementActivePoolCount creator = s := by
  unfold FactoryStorage.decrementActivePoolCount
  rw [if_neg (by omega)]

section Creation

variable {host arena : Address} {config : PoolConfig}

theorem Creates.creatorStake (hc : Creates env auths host config f arena f') :
    f'.storage.creatorStake =
      Function.update f.storage.creatorStake arena (some (config.stakeOf host)) := by
  obtain ⟨outside, w, -, -, rfl⟩ := hc.result
  rfl

theorem Creates.activePoolCount (hc : Creates env auths host config f arena f') (h : Address) :
    f'.storage.loadActivePoolCount h =
      if h = host then satAddU32 (f.storage.loadActivePoolCount host) 1
      else f.storage.loadActivePoolCount h := by
  obtain ⟨outside, w, -, -, rfl⟩ := hc.result
  exact loadActivePoolCount_save _ _ _ _

theorem Creates.arenas (hc : Creates env auths host config f arena f') (x : Address) :
    (f'.arenas x).isSome = (decide (x = arena) || (f.arenas x).isSome) := by
  obtain ⟨outside, w, -, -, rfl⟩ := hc.result
  show (Function.update f.arenas arena _ x).isSome = _
  by_cases hx : x = arena
  · subst hx
    simp
  · simp [hx]

theorem Creates.createdArena (hc : Creates env auths host config f arena f') :
    createdArena env (f, .call auths (.createPool host config)) = some (host, arena) := by
  rw [hc.arena_eq]
  rfl

end Creation

/-- A step that creates, releases and reclaims nothing. -/
structure Unrelated (env : FactoryEnv H) (f : FactoryState H) (a : FactoryAction H)
    (f' : FactoryState H) : Prop where
  created : createdArena env (f, a) = none
  released : releasedArena (f, a) = none
  reclaimed : ∀ auths arena, a ≠ .call auths (.reclaimCreatorStake arena)
  creatorStake : f'.storage.creatorStake = f.storage.creatorStake
  activePoolCount : f'.storage.activePoolCount = f.storage.activePoolCount
  arenas : ∀ x, (f'.arenas x).isSome = (f.arenas x).isSome
  sequence : f'.storage.sequence = f.storage.sequence

theorem SameBooks.unrelated {c : FactoryCall} (hb : SameBooks f f')
    (hrelease : ∀ arena, c ≠ .releaseArena arena)
    (hcreate : ∀ host config, c ≠ .createPool host config)
    (hreclaim : ∀ arena, c ≠ .reclaimCreatorStake arena) :
    Unrelated env f (.call auths c) f' where
  created := by
    unfold createdArena
    split
    · rename_i host config heq
      exact absurd (FactoryAction.call.inj heq).2 (hcreate _ _)
    · rfl
  released := by
    unfold releasedArena
    split
    · rename_i arena heq
      exact absurd (FactoryAction.call.inj heq).2 (hrelease _)
    · rfl
  reclaimed _ arena h := hreclaim arena (FactoryAction.call.inj h).2
  creatorStake := hb.creatorStake
  activePoolCount := hb.activePoolCount
  arenas x := by rw [hb.arenas]
  sequence := by
    unfold FactoryStorage.sequence
    rw [hb.poolSequence]

/-- A step concerns a creation, a release or a reclaimed stake, or is unrelated
    to all three. -/
inductive Turn (env : FactoryEnv H) (f : FactoryState H) :
    FactoryAction H → FactoryState H → Prop
  | unrelated {a : FactoryAction H} {f' : FactoryState H} : Unrelated env f a f' → Turn env f a f'
  | create {auths : List Address} {host arena config}
      {f' : FactoryState H} : Creates env auths host config f arena f' →
      Turn env f (.call auths (.createPool host config)) f'
  | release {auths : List Address} {arena record} : arena ∈ auths →
      f.storage.creatorStake arena = some record →
      Turn env f (.call auths (.releaseArena arena))
        { f with storage := f.storage.decrementActivePoolCount record.creator }
  | reclaim {auths : List Address} {arena record outside} : arena ∈ auths →
      f.storage.creatorStake arena = some record →
      env.network.transfer f.now record.stakeToken env.here record.creator record.amount
        f.outside = some outside →
      Turn env f (.call auths (.reclaimCreatorStake arena))
        { f with storage := f.storage.removeCreatorStake arena, outside := outside }

theorem FactoryStep.turn (hs : FactoryStep env f a f') : Turn env f a f' := by
  cases hs with
  | elsewhere harenas _ => exact .unrelated ⟨rfl, rfl, by simp, rfl, rfl, harenas, rfl⟩
  | tick _ _ => exact .unrelated ⟨rfl, rfl, by simp, rfl, rfl, fun _ => rfl, rfl⟩
  | call _ hexec =>
    cases exec_effect env _ hexec with
    | configure hrelease hcreate hreclaim _ hb =>
      exact .unrelated (hb.unrelated hrelease hcreate hreclaim)
    | release _ hauth hrecord => exact .release hauth hrecord
    | create hc => exact .create hc
    | reclaim hauth hrecord htr => exact .reclaim hauth hrecord htr
    | update _ _ => exact .unrelated ⟨rfl, rfl, by simp, rfl, rfl, fun _ => rfl, rfl⟩

/-! ## What a run has created and released -/

/-- The creations of a history, against the state it leads to. -/
structure Created (env : FactoryEnv H) (tr : List (FactoryState H × FactoryAction H))
    (f : FactoryState H) : Prop where
  /-- Every creation deploys a new arena. -/
  distinct : ((created env tr).map (·.2)).Nodup
  deployed : ∀ p ∈ created env tr, (f.arenas p.2).isSome = true
  recorded : ∀ arena record, f.storage.creatorStake arena = some record →
    (record.creator, arena) ∈ created env tr
  released : ∀ arena ∈ released tr, ∃ host, (host, arena) ∈ created env tr
  length : (created env tr).length = f.storage.sequence

theorem created_cons (e : FactoryState H × FactoryAction H) :
    created env (e :: tr) = (createdArena env e).toList ++ created env tr := by
  unfold created
  cases h : createdArena env e with
  | none => rw [List.filterMap_cons_none h]; rfl
  | some p => rw [List.filterMap_cons_some h]; rfl

theorem released_cons (e : FactoryState H × FactoryAction H) :
    released (e :: tr) = (releasedArena e).toList ++ released tr := by
  unfold released
  cases h : releasedArena e with
  | none => rw [List.filterMap_cons_none h]; rfl
  | some arena => rw [List.filterMap_cons_some h]; rfl

theorem Created.step (hi : Created env tr f) (hs : FactoryStep env f a f') :
    Created env ((f, a) :: tr) f' := by
  cases hs.turn with
  | unrelated hu =>
    have hc : created env ((f, a) :: tr) = created env tr := by
      rw [created_cons, hu.created]
      rfl
    refine ⟨?_, ?_, ?_, ?_, ?_⟩
    · rw [hc]
      exact hi.distinct
    · rw [hc]
      intro p hp
      rw [hu.arenas]
      exact hi.deployed p hp
    · rw [hc, hu.creatorStake]
      exact hi.recorded
    · rw [hc, released_cons, hu.released]
      exact hi.released
    · rw [hc, hu.sequence]
      exact hi.length
  | @create auths host arena config _ hcr =>
    have hc : created env ((f, .call auths (.createPool host config)) :: tr) =
        (host, arena) :: created env tr := by
      rw [created_cons, hcr.createdArena]
      rfl
    refine ⟨?_, ?_, ?_, ?_, ?_⟩
    · rw [hc, List.map_cons, List.nodup_cons]
      refine ⟨fun hmem => ?_, hi.distinct⟩
      -- the address was vacant
      obtain ⟨p, hp, heq⟩ := List.mem_map.mp hmem
      have hsome := hi.deployed p hp
      rw [heq, hcr.vacant] at hsome
      cases hsome
    · rw [hc]
      intro p hp
      rw [hcr.arenas]
      rcases List.mem_cons.mp hp with rfl | hp
      · simp
      · simp [hi.deployed p hp]
    · rw [hc, hcr.creatorStake]
      intro x record hx
      by_cases hxa : x = arena
      · subst hxa
        rw [Function.update_self] at hx
        obtain rfl := Option.some.inj hx
        exact List.mem_cons_self
      · rw [Function.update_of_ne hxa] at hx
        exact List.mem_cons_of_mem _ (hi.recorded x record hx)
    · rw [hc, released_cons]
      intro x hx
      obtain ⟨h, hh⟩ := hi.released x hx
      exact ⟨h, List.mem_cons_of_mem _ hh⟩
    · rw [hc, hcr.sequence, List.length_cons, hi.length]
  | @release _ arena record _ hrecord =>
    obtain ⟨-, hseq, hstake⟩ := decrementActivePoolCount_pool f.storage record.creator
    refine ⟨hi.distinct, hi.deployed, ?_, ?_, ?_⟩
    · intro x r hx
      dsimp only at hx
      rw [hstake] at hx
      exact hi.recorded x r hx
    · rw [released_cons]
      intro x hx
      rcases List.mem_cons.mp hx with rfl | hx
      · exact ⟨_, hi.recorded _ _ hrecord⟩
      · exact hi.released x hx
    · refine hi.length.trans ?_
      unfold FactoryStorage.sequence
      rw [hseq]
  | @reclaim _ arena record _ _ _ _ =>
    refine ⟨hi.distinct, hi.deployed, fun x r hx => ?_, hi.released, hi.length⟩
    change Function.update f.storage.creatorStake arena none x = some r at hx
    by_cases hxa : x = arena
    · subst hxa
      rw [Function.update_self] at hx
      cases hx
    · rw [Function.update_of_ne hxa] at hx
      exact hi.recorded x r hx

theorem created_of_run {outside : H} {now : ℕ}
    (hrun : Run (FactoryStep env) (.fresh outside now) tr f) : Created env tr f := by
  refine hrun.history (I := Created env) ⟨List.nodup_nil, ?_, ?_, ?_, rfl⟩
    (fun tr f a f' _ hi hs => hi.step hs)
  · intro p hp
    cases hp
  · intro arena record h
    cases h
  · intro arena h
    cases h

/-! ## The law -/

/-- The active pool counts are those of the history: every host is charged with
    the arenas created and not released, a repeated release changes nothing,
    and an arena can be released as soon as the factory is not paused. -/
structure CountsRight (env : FactoryEnv H) (tr : List (FactoryState H × FactoryAction H))
    (f : FactoryState H) : Prop where
  count : ∀ host, f.storage.loadActivePoolCount host = unreleased env tr host
  again : ∀ t auths arena earlier, tr = (t, .call auths (.releaseArena arena)) :: earlier →
    arena ∈ released earlier → f = t
  releasable : ∀ p ∈ created env tr, p.2 ∉ released tr → ∀ auths, p.2 ∈ auths →
    ∃ f', releaseArena auths p.2 { f with storage := f.storage.setPaused false } = .ok f'

/-- A step keeps the counts right: no arena is released again unless its host is
    charged with none, and none is reclaimed that has not been released. -/
def Orderly (tr : List (FactoryState H × FactoryAction H)) (f : FactoryState H) :
    FactoryAction H → Prop
  | .call _ (.releaseArena arena) => arena ∈ released tr →
    ∀ record ∈ f.storage.creatorStake arena,
      f.storage.loadActivePoolCount record.creator = 0
  | .call _ (.reclaimCreatorStake arena) => arena ∈ released tr
  | _ => True

instance (tr : List (FactoryState H × FactoryAction H)) (f : FactoryState H)
    (a : FactoryAction H) : Decidable (Orderly tr f a) := by
  unfold Orderly
  split
  · infer_instance
  · infer_instance
  · infer_instance

/-- An arena can be released while its stake is recorded. -/
theorem releasable_iff {arena : Address} :
    (∀ auths, arena ∈ auths →
      ∃ f', releaseArena auths arena { f with storage := f.storage.setPaused false } = .ok f') ↔
      (f.storage.creatorStake arena).isSome = true := by
  constructor
  · intro h
    obtain ⟨f', hf'⟩ := h [arena] (List.mem_singleton_self arena)
    obtain ⟨-, -, record, hr, -⟩ := releaseArena_eq_ok.mp hf'
    exact Option.isSome_iff_exists.mpr ⟨record, hr⟩
  · intro h auths hauth
    obtain ⟨record, hr⟩ := Option.isSome_iff_exists.mp h
    exact ⟨_, releaseArena_eq_ok.mpr ⟨rfl, hauth, record, hr, rfl⟩⟩

/-- The law for a step that is no release. -/
theorem countsRight_iff_of_not_release (hnone : releasedArena (f, a) = none) :
    CountsRight env ((f, a) :: tr) f' ↔
      (∀ host, f'.storage.loadActivePoolCount host = unreleased env ((f, a) :: tr) host) ∧
        ∀ p ∈ created env ((f, a) :: tr), p.2 ∉ released tr →
          (f'.storage.creatorStake p.2).isSome = true := by
  have hr : released ((f, a) :: tr) = released tr := by
    rw [released_cons, hnone]
    rfl
  constructor
  · intro h
    refine ⟨h.count, fun p hp hnot => releasable_iff.mp (h.releasable p hp ?_)⟩
    rw [hr]
    exact hnot
  · rintro ⟨hcount, hrel⟩
    refine ⟨hcount, fun t auths arena earlier heq _ => ?_, fun p hp hnot => ?_⟩
    · cases heq
      cases hnone
    · rw [hr] at hnot
      exact releasable_iff.mpr (hrel p hp hnot)

theorem unreleased_unrelated (hu : Unrelated env f a f') (host : Address) :
    unreleased env ((f, a) :: tr) host = unreleased env tr host := by
  unfold unreleased
  rw [created_cons, released_cons, hu.created, hu.released]
  rfl

theorem unreleased_create {host arena : Address} {config : PoolConfig} (hi : Created env tr f)
    (hc : Creates env auths host config f arena f') (h : Address) :
    unreleased env ((f, .call auths (.createPool host config)) :: tr) h =
      unreleased env tr h + if h = host then 1 else 0 := by
  have hnot : arena ∉ released tr := by
    intro hmem
    obtain ⟨h, hh⟩ := hi.released arena hmem
    have hsome := hi.deployed _ hh
    rw [hc.vacant] at hsome
    cases hsome
  unfold unreleased
  rw [created_cons, released_cons, hc.createdArena]
  show List.countP _ ((host, arena) :: created env tr) = _
  rw [List.countP_cons]
  congr 1
  by_cases hh : h = host
  · subst hh
    simp [releasedArena, hnot]
  · simp [hh, Ne.symm hh]

/-- A first release takes one off the count of the arena's host. -/
theorem unreleased_release {arena : Address} {record : CreatorStakeRecord}
    (hi : Created env tr f) (hr : f.storage.creatorStake arena = some record)
    (hfirst : arena ∉ released tr) (h : Address) :
    unreleased env ((f, .call auths (.releaseArena arena)) :: tr) h +
      (if h = record.creator then 1 else 0) = unreleased env tr h := by
  have hmem := hi.recorded arena record hr
  have hex := countP_exclude (q := fun p : Address × Address =>
    decide (p.1 = h ∧ p.2 ∉ released tr)) hi.distinct hmem
  have hhost : (if decide (record.creator = h ∧ arena ∉ released tr) = true then 1 else 0) =
      if h = record.creator then 1 else 0 := by
    by_cases hh : h = record.creator
    · subst hh
      simp [hfirst]
    · simp [hh, Ne.symm hh]
  unfold unreleased
  rw [created_cons, released_cons, ← hex]
  dsimp only
  rw [hhost]
  congr 1
  show (created env tr).countP (fun p => decide (p.1 = h ∧ p.2 ∉ arena :: released tr)) = _
  apply List.countP_congr
  intro p _
  rw [Bool.and_eq_true, decide_eq_true_iff, decide_eq_true_iff, decide_eq_true_iff,
    List.mem_cons, not_or]
  tauto

theorem unreleased_again {arena : Address} (hagain : arena ∈ released tr) (h : Address) :
    unreleased env ((f, .call auths (.releaseArena arena)) :: tr) h = unreleased env tr h := by
  have heq : ∀ x, x ∈ arena :: released tr ↔ x ∈ released tr := by
    intro x
    rw [List.mem_cons]
    constructor
    · rintro (rfl | hx)
      · exact hagain
      · exact hx
    · exact .inr
  unfold unreleased
  rw [created_cons, released_cons]
  show (created env tr).countP (fun p => decide (p.1 = h ∧ p.2 ∉ arena :: released tr)) = _
  simp only [heq]

section Law

variable (hi : Created env tr f) (h : CountsRight env tr f)

include h in
theorem CountsRight.stake {p : Address × Address} (hp : p ∈ created env tr)
    (hnot : p.2 ∉ released tr) : (f.storage.creatorStake p.2).isSome = true :=
  releasable_iff.mp (h.releasable p hp hnot)

include h in
theorem CountsRight.unrelated (hu : Unrelated env f a f') :
    CountsRight env ((f, a) :: tr) f' ↔ Orderly tr f a := by
  have hc : created env ((f, a) :: tr) = created env tr := by
    rw [created_cons, hu.created]
    rfl
  have horderly : Orderly tr f a := by
    unfold Orderly
    split
    · exact absurd hu.released (by simp [releasedArena])
    · exact absurd rfl (hu.reclaimed _ _)
    · trivial
  refine iff_of_true ((countsRight_iff_of_not_release hu.released).mpr ⟨fun host => ?_, ?_⟩)
    horderly
  · rw [unreleased_unrelated hu, ← h.count]
    unfold FactoryStorage.loadActivePoolCount
    rw [hu.activePoolCount]
  · rw [hc, hu.creatorStake]
    exact fun p hp hnot => h.stake hp hnot

include hi h in
theorem CountsRight.create {host arena : Address} {config : PoolConfig}
    (hc : Creates env auths host config f arena f') :
    CountsRight env ((f, .call auths (.createPool host config)) :: tr) f' := by
  refine (countsRight_iff_of_not_release rfl).mpr ⟨fun x => ?_, fun p hp hnot => ?_⟩
  · -- no more pools are active than were ever numbered
    have hlt : f.storage.loadActivePoolCount host < u32Max := by
      have hle : unreleased env tr host ≤ (created env tr).length := List.countP_le_length
      have hnum := hc.numbered
      rw [← h.count, hi.length] at hle
      omega
    rw [hc.activePoolCount, unreleased_create hi hc, satAddU32_of_lt hlt, ← h.count]
    split_ifs with hx
    · rw [hx]
    · rfl
  · rw [created_cons, hc.createdArena] at hp
    rw [hc.creatorStake]
    by_cases hpa : p.2 = arena
    · rw [hpa, Function.update_self]
      rfl
    · rw [Function.update_of_ne hpa]
      rcases List.mem_cons.mp hp with rfl | hp
      · exact absurd rfl hpa
      · exact h.stake hp hnot

include hi h in
theorem CountsRight.release {arena : Address} {record : CreatorStakeRecord}
    (hr : f.storage.creatorStake arena = some record) (hfirst : arena ∉ released tr) :
    CountsRight env ((f, .call auths (.releaseArena arena)) :: tr)
      { f with storage := f.storage.decrementActivePoolCount record.creator } := by
  obtain ⟨-, -, hstake⟩ := decrementActivePoolCount_pool f.storage record.creator
  refine ⟨fun x => ?_, fun t auths' arena' earlier heq hagain => ?_, fun p hp hnot => ?_⟩
  · have hone := @unreleased_release _ env f tr auths arena record hi hr hfirst x
    rw [← h.count x] at hone
    dsimp only
    rw [loadActivePoolCount_decrement]
    split_ifs at hone ⊢ with hx
    · omega
    · omega
  · cases heq
    exact absurd hagain hfirst
  · rw [released_cons] at hnot
    apply releasable_iff.mpr
    dsimp only
    rw [hstake]
    exact h.stake hp fun hmem => hnot (List.mem_append_right _ hmem)

include h in
theorem CountsRight.releaseAgain {arena : Address} {record : CreatorStakeRecord}
    (hagain : arena ∈ released tr) :
    CountsRight env ((f, .call auths (.releaseArena arena)) :: tr)
        { f with storage := f.storage.decrementActivePoolCount record.creator } ↔
      f.storage.loadActivePoolCount record.creator = 0 := by
  constructor
  · intro h'
    have hsame := congrArg (fun g => g.storage.loadActivePoolCount record.creator)
      (h'.again f auths arena tr rfl hagain)
    dsimp only at hsame
    rw [loadActivePoolCount_decrement, if_pos rfl] at hsame
    omega
  · intro hzero
    rw [decrementActivePoolCount_zero hzero]
    refine ⟨fun x => ?_, fun t _ _ _ heq _ => ?_, fun p hp hnot => ?_⟩
    · rw [unreleased_again hagain]
      exact h.count x
    · cases heq
      rfl
    · rw [released_cons] at hnot
      exact releasable_iff.mpr (h.stake hp fun hmem => hnot (List.mem_append_right _ hmem))

include hi h in
theorem CountsRight.reclaim {arena : Address} {record : CreatorStakeRecord} {outside : H}
    (hr : f.storage.creatorStake arena = some record) :
    CountsRight env ((f, .call auths (.reclaimCreatorStake arena)) :: tr)
        { f with storage := f.storage.removeCreatorStake arena, outside := outside } ↔
      arena ∈ released tr := by
  have hstake : ∀ x, (f.storage.removeCreatorStake arena).creatorStake x =
      if x = arena then none else f.storage.creatorStake x := fun x =>
    Function.update_apply f.storage.creatorStake arena none x
  rw [countsRight_iff_of_not_release rfl]
  constructor
  · rintro ⟨-, hrel⟩
    by_contra hnot
    have hsome := hrel _ (hi.recorded arena record hr) hnot
    dsimp only at hsome
    rw [hstake, if_pos rfl] at hsome
    cases hsome
  · intro hmem
    refine ⟨h.count, fun p hp hnot => ?_⟩
    dsimp only
    rw [hstake, if_neg (by rintro rfl; exact hnot hmem)]
    exact h.stake hp hnot

include hi h in
/-- A step keeps the counts right exactly when it is orderly. -/
theorem CountsRight.step (hs : FactoryStep env f a f') :
    CountsRight env ((f, a) :: tr) f' ↔ Orderly tr f a := by
  cases hs.turn with
  | unrelated hu => exact h.unrelated hu
  | create hc => exact iff_of_true (h.create hi hc) trivial
  | @release _ arena record _ hr =>
    by_cases hagain : arena ∈ released tr
    · rw [h.releaseAgain hagain]
      constructor
      · intro hzero _ record' hr'
        obtain rfl := Option.some.inj (hr.symm.trans hr')
        exact hzero
      · exact fun horderly => horderly hagain record hr
    · exact iff_of_true (h.release hi hr hagain) fun hmem => absurd hmem hagain
  | reclaim _ hr _ => exact h.reclaim hi hr

end Law

/-- The active pool counts are right all along a run exactly when no arena is
    released a second time while its host is charged with another one, and no
    stake is reclaimed before its arena is released. -/
theorem countsRight_iff {outside : H} {now : ℕ}
    (hrun : Run (FactoryStep env) (.fresh outside now) tr f) :
    AlongRun (CountsRight env) tr f ↔ EachStep Orderly tr := by
  apply hrun.alongRun_iff
  · refine ⟨fun host => rfl, fun t auths arena earlier heq _ => ?_, fun p hp => ?_⟩
    · cases heq
    · cases hp
  · intro tr t a u hr h hs
    exact h.step (created_of_run hr) hs

/-- Host 11 creates two pools, and the first arena is released and then has its
    stake reclaimed. -/
theorem countsRight_iff_sample :
    ∃ tr f, Run (FactoryStep sampleEnv) (.fresh sampleBalances 0) tr f ∧
      released tr = [⟨101⟩] ∧ AlongRun (CountsRight sampleEnv) tr f := by
  obtain ⟨tr, f, hrun, hreleased, hsteps⟩ :=
    @exists_factoryRun _ sampleEnv (sampleSetup ++ [([⟨11⟩], .createPool ⟨11⟩ sampleConfig),
      ([⟨11⟩], .createPool ⟨11⟩ sampleConfig), ([⟨101⟩], .releaseArena ⟨101⟩),
      ([⟨101⟩], .reclaimCreatorStake ⟨101⟩)]) (.fresh sampleBalances 0)
      (fun tr _ => released tr = [⟨101⟩] ∧ EachStep Orderly tr) (by decide +kernel)
  exact ⟨tr, f, hrun, hreleased, (countsRight_iff hrun).mpr hsteps⟩

/-- The arena of the first of two pools is released twice: the host has an active
    pool and is charged with none. -/
theorem not_countsRight :
    ∃ tr f, Run (FactoryStep sampleEnv) (.fresh sampleBalances 0) tr f ∧
      ¬ AlongRun (CountsRight sampleEnv) tr f := by
  obtain ⟨tr, f, hrun, hcount, hopen⟩ :=
    @exists_factoryRun _ sampleEnv (sampleSetup ++ [([⟨11⟩], .createPool ⟨11⟩ sampleConfig),
      ([⟨11⟩], .createPool ⟨11⟩ sampleConfig), ([⟨101⟩], .releaseArena ⟨101⟩),
      ([⟨101⟩], .releaseArena ⟨101⟩)]) (.fresh sampleBalances 0)
      (fun tr f => f.storage.loadActivePoolCount ⟨11⟩ = 0 ∧ unreleased sampleEnv tr ⟨11⟩ = 1)
      (by decide +kernel)
  refine ⟨tr, f, hrun, fun h => ?_⟩
  have heq := h.last.count ⟨11⟩
  rw [hcount, hopen] at heq
  cases heq

end InverseArena.Factory
