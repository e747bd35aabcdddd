import InverseArena.Factory.ActivePools
import InverseArena.Arena.Effects

/-!
# The factory holds the stakes it has recorded

Results:
* `Custody.step`: in every token the factory's balance covers the stakes
  recorded in it.
* `FactoryStep.collects`, `FactoryStep.refunds`: what creating a pool and
  reclaiming its stake move.
* `factory_custody`: the two together, and no stake is paid out twice.
-/

namespace InverseArena.Factory

open Host MachineInt KeyedMap Arena Transition

variable {H : Type} {env : FactoryEnv H} {tokens : H → Tokens} {f f' : FactoryState H}
  {a : FactoryAction H} {tr : List (FactoryState H × FactoryAction H)} {auths : List Address}

/-- The tokens of the network are standard, and what other contracts do by
    themselves takes nothing from the factory. -/
structure ExactTokens (env : FactoryEnv H) (tokens : H → Tokens) : Prop where
  transfer : ∀ {now token sender recipient amount h h'},
    env.network.transfer now token sender recipient amount h = some h' →
      (tokens h).transfer token sender recipient amount = some (tokens h')
  balanceOf : ∀ {now vault user balance h h'},
    env.network.balanceOf now vault user h = some (balance, h') →
      ∀ token, (tokens h).balance token env.here ≤ (tokens h').balance token env.here
  evolves : ∀ {now h h'}, env.network.evolves now h h' →
    ∀ token, (tokens h).balance token env.here ≤ (tokens h').balance token env.here

/-- The amount of a stake record that is in `token`. -/
def amountIn (token : Address) : Option CreatorStakeRecord → ℤ
  | some record => if record.stakeToken = token then record.amount else 0
  | none => 0

/-- The stake recorded for `arena`, if it is in `token`. -/
def stakeIn (s : FactoryStorage) (token arena : Address) : ℤ :=
  amountIn token (s.creatorStake arena)

/-- The stakes recorded are those of deployed arenas, and covered. -/
structure Custody (env : FactoryEnv H) (tokens : H → Tokens) (f : FactoryState H) : Prop where
  deployed : ∀ arena record, f.storage.creatorStake arena = some record →
    (f.arenas arena).isSome = true
  creator_ne : ∀ arena record, f.storage.creatorStake arena = some record →
    record.creator ≠ env.here
  finite : ∀ token, (Function.support (stakeIn f.storage token)).Finite
  covered : ∀ token,
    ∑ᶠ arena, stakeIn f.storage token arena ≤ (tokens f.outside).balance token env.here

/-! ## The stakes -/

theorem stakeIn_update {s s' : FactoryStorage} {arena : Address}
    {record : Option CreatorStakeRecord}
    (h : s'.creatorStake = Function.update s.creatorStake arena record) (token : Address) :
    stakeIn s' token = Function.update (stakeIn s token) arena (amountIn token record) := by
  funext x
  unfold stakeIn
  rw [h]
  by_cases hx : x = arena
  · subst hx
    rw [Function.update_self, Function.update_self]
  · rw [Function.update_of_ne hx, Function.update_of_ne hx]

theorem stakeIn_congr {s s' : FactoryStorage} (h : s'.creatorStake = s.creatorStake)
    (token : Address) : stakeIn s' token = stakeIn s token := by
  funext x
  unfold stakeIn
  rw [h]

/-! ## What a creation and a refund move -/

/-- A creation collects the stake from the host, and records it. -/
structure Collects (env : FactoryEnv H) (tokens : H → Tokens) (host : Address)
    (config : PoolConfig) (f f' : FactoryState H) (arena : Address) : Prop where
  positive : 0 < config.entryFee
  host_ne : host ≠ env.here
  vacant : f.arenas arena = none
  recorded : f'.storage.creatorStake =
    Function.update f.storage.creatorStake arena (some (config.stakeOf host))
  /-- The host's tokens are moved first; what follows takes nothing away. -/
  collected : ∃ paid, (tokens f.outside).transfer config.stakeToken host env.here config.entryFee =
    some paid ∧ ∀ token, paid.balance token env.here ≤ (tokens f'.outside).balance token env.here

theorem Creates.collects {host arena : Address} {config : PoolConfig}
    (htok : ExactTokens env tokens) (hhere : env.here ∉ auths)
    (hc : Creates env auths host config f arena f') :
    Collects env tokens host config f f' arena := by
  refine ⟨hc.positive, ?_, hc.vacant, hc.creatorStake, ?_⟩
  · rintro rfl
    exact hhere hc.authorized
  · obtain ⟨outside, w, htr, hinit, rfl⟩ := hc.result
    refine ⟨_, htok.transfer htr, fun token => ?_⟩
    cases initializeArena_effect hinit with
    | initialized _ _ _ _ hread => exact htok.balanceOf hread token
    | administered hadm _ _ _ _ => cases hadm

/-- A refund pays the recorded amount to the creator, and ends the record. -/
structure Refunds (env : FactoryEnv H) (tokens : H → Tokens) (arena : Address)
    (f f' : FactoryState H) (record : CreatorStakeRecord) : Prop where
  recorded : f.storage.creatorStake arena = some record
  removed : f'.storage.creatorStake = Function.update f.storage.creatorStake arena none
  paid : (tokens f.outside).transfer record.stakeToken env.here record.creator record.amount =
    some (tokens f'.outside)

/-- What a step means for the factory's custody. -/
inductive Moves (env : FactoryEnv H) (tokens : H → Tokens) (f f' : FactoryState H) :
    FactoryAction H → Prop
  | collects {auths : List Address} {host arena config} :
      Collects env tokens host config f f' arena →
      (∀ x, (f'.arenas x).isSome = (decide (x = arena) || (f.arenas x).isSome)) →
      Moves env tokens f f' (.call auths (.createPool host config))
  | refunds {auths : List Address} {arena record} : Refunds env tokens arena f f' record →
      f'.arenas = f.arenas →
      Moves env tokens f f' (.call auths (.reclaimCreatorStake arena))
  | keeps {a : FactoryAction H} : (∀ auths host config, a ≠ .call auths (.createPool host config)) →
      (∀ auths arena, a ≠ .call auths (.reclaimCreatorStake arena)) →
      f'.storage.creatorStake = f.storage.creatorStake →
      (∀ x, (f'.arenas x).isSome = (f.arenas x).isSome) →
      (∀ token, (tokens f.outside).balance token env.here ≤
        (tokens f'.outside).balance token env.here) →
      Moves env tokens f f' a

theorem FactoryStep.moves (htok : ExactTokens env tokens) (hs : FactoryStep env f a f') :
    Moves env tokens f f' a := by
  cases hs with
  | elsewhere harenas hout =>
    exact .keeps (by simp) (by simp) rfl harenas fun token => htok.evolves hout token
  | tick _ _ => exact .keeps (by simp) (by simp) rfl (fun _ => rfl) fun _ => le_rfl
  | call hhere hexec =>
    cases exec_effect env _ hexec with
    | configure _ hcreate hreclaim _ hb =>
      refine .keeps (fun _ host config h => hcreate host config (FactoryAction.call.inj h).2)
        (fun _ arena h => hreclaim arena (FactoryAction.call.inj h).2) hb.creatorStake
        (fun x => by rw [hb.arenas]) fun token => ?_
      rw [hb.outside]
    | @release arena record _ _ _ =>
      obtain ⟨-, -, hstake⟩ := decrementActivePoolCount_pool f.storage record.creator
      exact .keeps (by simp) (by simp) hstake (fun _ => rfl) fun _ => le_rfl
    | create hc => exact .collects (hc.collects htok hhere) hc.arenas
    | reclaim _ hr htr => exact .refunds ⟨hr, rfl, htok.transfer htr⟩ rfl
    | update _ _ => exact .keeps (by simp) (by simp) rfl (fun _ => rfl) fun _ => le_rfl

/-! ## The invariant -/

theorem Custody.collects {host arena : Address} {config : PoolConfig}
    (hi : Custody env tokens f) (hc : Collects env tokens host config f f' arena)
    (harenas : ∀ x, (f'.arenas x).isSome = (decide (x = arena) || (f.arenas x).isSome)) :
    Custody env tokens f' := by
  have hnone := creatorStake_of_vacant hi.deployed hc.vacant
  refine ⟨fun x record hx => ?_, fun x record hx => ?_, fun token => ?_, fun token => ?_⟩
  · rw [harenas]
    by_cases hxa : x = arena
    · simp [hxa]
    · rw [hc.recorded, Function.update_of_ne hxa] at hx
      simp [hi.deployed x record hx]
  · rw [hc.recorded] at hx
    by_cases hxa : x = arena
    · subst hxa
      rw [Function.update_self] at hx
      obtain rfl := Option.some.inj hx
      exact hc.host_ne
    · rw [Function.update_of_ne hxa] at hx
      exact hi.creator_ne x record hx
  · rw [stakeIn_update hc.recorded]
    exact support_update_finite (hi.finite token) _ _
  · obtain ⟨paid, htr, hle⟩ := hc.collected
    have hzero : stakeIn f.storage token arena = 0 := by
      unfold stakeIn
      rw [hnone]
      rfl
    have hcov := hi.covered token
    have hbal := Tokens.balance_transfer htr token env.here
    rw [stakeIn_update hc.recorded, finsum_update (hi.finite token), hzero]
    have hout : ¬ (token = config.stakeToken ∧ env.here = host) := fun h => hc.host_ne h.2.symm
    refine le_trans ?_ (hle token)
    rw [hbal, if_neg hout]
    unfold amountIn PoolConfig.stakeOf
    dsimp only
    by_cases ht : config.stakeToken = token
    · rw [if_pos ht, if_pos ⟨ht.symm, rfl⟩]
      omega
    · rw [if_neg ht, if_neg (fun h => ht h.1.symm)]
      omega

theorem Custody.refunds {arena : Address} {record : CreatorStakeRecord}
    (hi : Custody env tokens f) (hr : Refunds env tokens arena f f' record)
    (harenas : f'.arenas = f.arenas) : Custody env tokens f' := by
  have hold : ∀ x r, f'.storage.creatorStake x = some r → f.storage.creatorStake x = some r := by
    intro x r hx
    rw [hr.removed] at hx
    by_cases hxa : x = arena
    · subst hxa
      rw [Function.update_self] at hx
      cases hx
    · rwa [Function.update_of_ne hxa] at hx
  refine ⟨fun x r hx => ?_, fun x r hx => hi.creator_ne x r (hold x r hx), fun token => ?_,
    fun token => ?_⟩
  · rw [harenas]
    exact hi.deployed x r (hold x r hx)
  · rw [stakeIn_update hr.removed]
    exact support_update_finite (hi.finite token) _ _
  · have hcov := hi.covered token
    have hbal := Tokens.balance_transfer hr.paid token env.here
    have hne := hi.creator_ne arena record hr.recorded
    have hstake : stakeIn f.storage token arena =
        if record.stakeToken = token then record.amount else 0 := by
      unfold stakeIn
      rw [hr.recorded]
      rfl
    have hin : ¬ (token = record.stakeToken ∧ env.here = record.creator) :=
      fun h => hne h.2.symm
    rw [stakeIn_update hr.removed, finsum_update (hi.finite token), hstake, hbal, if_neg hin]
    dsimp only [amountIn]
    by_cases ht : record.stakeToken = token
    · rw [if_pos ht, if_pos ⟨ht.symm, rfl⟩]
      omega
    · rw [if_neg ht, if_neg (fun h => ht h.1.symm)]
      omega

/-- Every step keeps the stakes covered. -/
theorem Custody.step (hi : Custody env tokens f) (hm : Moves env tokens f f' a) :
    Custody env tokens f' := by
  cases hm with
  | collects hc harenas => exact hi.collects hc harenas
  | refunds hr harenas => exact hi.refunds hr harenas
  | keeps _ _ hstake harenas hle =>
    refine ⟨fun x r hx => ?_, fun x r hx => ?_, fun token => ?_, fun token => ?_⟩
    · rw [hstake] at hx
      rw [harenas]
      exact hi.deployed x r hx
    · rw [hstake] at hx
      exact hi.creator_ne x r hx
    · rw [stakeIn_congr hstake]
      exact hi.finite token
    · rw [stakeIn_congr hstake]
      exact (hi.covered token).trans (hle token)

theorem custody_fresh (outside : H) (now : ℕ) : Custody env tokens (.fresh outside now) := by
  have hzero : ∀ token, stakeIn FactoryStorage.fresh token = fun _ => 0 := fun _ => rfl
  refine ⟨fun _ _ h => ?_, fun _ _ h => ?_, fun token => ?_, fun token => ?_⟩
  · cases h
  · cases h
  · show (Function.support (stakeIn FactoryStorage.fresh token)).Finite
    rw [hzero, Function.support_fun_zero]
    exact Set.finite_empty
  · show ∑ᶠ arena, stakeIn FactoryStorage.fresh token arena ≤ _
    rw [hzero, finsum_zero]
    exact (tokens outside token).nonneg env.here

theorem custody_of_run (htok : ExactTokens env tokens) {outside : H} {now : ℕ}
    (hrun : Run (FactoryStep env) (.fresh outside now) tr f) : Custody env tokens f :=
  hrun.invariant (fun _ _ _ hi hs => hi.step (hs.moves htok)) (custody_fresh outside now)

/-- Whether a step reclaims the stake of `arena`. -/
def reclaims (arena : Address) : FactoryAction H → Bool
  | .call _ (.reclaimCreatorStake x) => x = arena
  | _ => false

/-- `arena` is deployed and has no recorded stake. -/
def Spent (arena : Address) (f : FactoryState H) : Prop :=
  (f.arenas arena).isSome = true ∧ f.storage.creatorStake arena = none

/-- A stake is reclaimed at most once: its arena stays deployed, so that no new
    record takes its place. -/
theorem reclaims_le_one (htok : ExactTokens env tokens) {outside : H} {now : ℕ}
    (hrun : Run (FactoryStep env) (.fresh outside now) tr f) (arena : Address) :
    tr.countP (fun e => reclaims arena e.2) ≤ 1 := by
  have hstrong := hrun.strengthen (I := Custody env tokens)
    (fun _ _ _ hi hs => hi.step (hs.moves htok)) (custody_fresh outside now)
  have hset : ∀ t a u, Custody env tokens t ∧ FactoryStep env t a u → reclaims arena a = true →
      ¬ Spent arena t ∧ Spent arena u := by
    rintro t a u ⟨hi, hs⟩ ha
    cases hs.moves htok with
    | collects _ _ => cases ha
    | keeps _ hreclaim _ _ _ =>
      unfold reclaims at ha
      split at ha
      · exact absurd rfl (hreclaim _ _)
      · cases ha
    | @refunds auths x record hr harenas =>
      obtain rfl : x = arena := of_decide_eq_true ha
      refine ⟨fun hspent => ?_, ?_, ?_⟩
      · have hnone := hspent.2
        rw [hr.recorded] at hnone
        cases hnone
      · rw [harenas]
        exact hi.deployed x record hr.recorded
      · rw [hr.removed, Function.update_self]
  have hkeep : ∀ t a u, Custody env tokens t ∧ FactoryStep env t a u → Spent arena t →
      Spent arena u := by
    rintro t a u ⟨hi, hs⟩ ⟨hdep, hnone⟩
    cases hs.moves htok with
    | @collects _ _ x _ hc harenas =>
      have hne : arena ≠ x := by
        rintro rfl
        rw [hc.vacant] at hdep
        cases hdep
      unfold Spent
      rw [harenas, hc.recorded, Function.update_of_ne hne]
      exact ⟨by simp [hdep], hnone⟩
    | keeps _ _ hstake harenas _ =>
      unfold Spent
      rw [harenas, hstake]
      exact ⟨hdep, hnone⟩
    | @refunds _ x _ hr harenas =>
      unfold Spent
      rw [harenas, hr.removed, Function.update_apply]
      refine ⟨hdep, ?_⟩
      split_ifs
      · rfl
      · exact hnone
  exact hstrong.countP_le_one hset hkeep

/-- In every reachable state the factory's balance in each token covers the
    stakes recorded in it. Whatever comes next, a new pool brings one record and
    the tokens of its host, a reclaimed stake is paid in full to its creator
    and its record ends, and nothing else touches the records or takes tokens
    out. No stake is reclaimed twice. -/
theorem factory_custody (htok : ExactTokens env tokens) {outside : H} {now : ℕ}
    (hrun : Run (FactoryStep env) (.fresh outside now) tr f) :
    (∀ token, ∑ᶠ arena, stakeIn f.storage token arena ≤
      (tokens f.outside).balance token env.here) ∧
    (∀ arena, tr.countP (fun e => reclaims arena e.2) ≤ 1) ∧
    ∀ a f', FactoryStep env f a f' →
      (∀ auths host config, a = .call auths (.createPool host config) → ∃ arena,
        f.storage.creatorStake arena = none ∧ Collects env tokens host config f f' arena) ∧
      (∀ auths arena, a = .call auths (.reclaimCreatorStake arena) → ∃ record,
        (record.creator, arena) ∈ created env tr ∧ Refunds env tokens arena f f' record) ∧
      ((∀ auths host config, a ≠ .call auths (.createPool host config)) →
        (∀ auths arena, a ≠ .call auths (.reclaimCreatorStake arena)) →
        f'.storage.creatorStake = f.storage.creatorStake ∧
          ∀ token, (tokens f.outside).balance token env.here ≤
            (tokens f'.outside).balance token env.here) := by
  have hi := custody_of_run htok hrun
  have hcreated := created_of_run hrun
  refine ⟨hi.covered, reclaims_le_one htok hrun, fun a f' hs => ?_⟩
  cases hs.moves htok with
  | @collects _ _ arena _ hc _ =>
    refine ⟨fun _ _ _ heq => ?_, fun _ _ heq => ?_, fun hnot _ => ?_⟩
    · cases heq
      exact ⟨arena, creatorStake_of_vacant hi.deployed hc.vacant, hc⟩
    · cases heq
    · exact absurd rfl (hnot _ _ _)
  | @refunds _ arena record hr _ =>
    refine ⟨fun _ _ _ heq => ?_, fun _ _ heq => ?_, fun _ hnot => ?_⟩
    · cases heq
    · cases heq
      exact ⟨record, hcreated.recorded arena record hr.recorded, hr⟩
    · exact absurd rfl (hnot _ _)
  | keeps hcreate hreclaim hstake _ hle =>
    refine ⟨fun _ _ _ heq => absurd heq (hcreate _ _ _), fun _ _ heq => ?_, fun _ _ => ?_⟩
    · exact absurd heq (hreclaim _ _)
    · exact ⟨hstake, hle⟩

theorem sample_exact : ExactTokens sampleEnv id where
  transfer h := h
  balanceOf h := by
    cases h
    exact fun _ => le_rfl
  evolves h := by
    cases h
    exact fun _ => le_rfl

/-- Hosts 11 and 12 create a pool each, and the stake of the first is
    reclaimed. -/
theorem factory_custody_sample :
    ∃ tr f, Run (FactoryStep sampleEnv) (.fresh sampleBalances 0) tr f ∧
      f.storage.creatorStake ⟨101⟩ = none ∧ stakeIn f.storage ⟨1⟩ ⟨102⟩ = 100 ∧
      ∑ᶠ arena, stakeIn f.storage ⟨1⟩ arena ≤ f.outside.balance ⟨1⟩ ⟨4⟩ ∧
      tr.countP (fun e => reclaims ⟨101⟩ e.2) ≤ 1 := by
  obtain ⟨tr, f, hrun, hgone, hstake⟩ :=
    @exists_factoryRun _ sampleEnv (sampleSetup ++ [([⟨10⟩], .addToWhitelist ⟨12⟩),
      ([⟨11⟩], .createPool ⟨11⟩ sampleConfig), ([⟨12⟩], .createPool ⟨12⟩ sampleConfig),
      ([⟨101⟩], .reclaimCreatorStake ⟨101⟩)]) (.fresh sampleBalances 0)
      (fun _ f => f.storage.creatorStake ⟨101⟩ = none ∧ stakeIn f.storage ⟨1⟩ ⟨102⟩ = 100)
      (by decide +kernel)
  obtain ⟨hcovered, honce, -⟩ := factory_custody sample_exact hrun
  exact ⟨tr, f, hrun, hgone, hstake, hcovered ⟨1⟩, honce ⟨101⟩⟩

end InverseArena.Factory
