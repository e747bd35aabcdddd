import InverseArena.CoinArena.Money

/-!
# The recorded prize pool

`PRIZE_POOL` grows by the fee of every join and by every yield that is
recorded, and nothing ever lowers it. Recording a yield moves no tokens, and a
claim pays the number of players times the fee in force, whatever the pool is.

Results:
* `PoolRecorded.step`: the pool is the sum of all fees and yields, as far as an
  `i128` can hold it, in every run.
* `PoolBacked.step`: what keeps the pool backed.
* `poolKept_of_guarded`: the pool is backed until it is claimed, and a claim pays
  all of it, in the runs in which no yield and no refund exceeds what the arena
  holds beyond the pool, and a prize is claimed only where every join was made at
  the fee in force and counted, and no yield was recorded.
-/

namespace InverseArena.CoinArena

open Host KeyedMap MachineInt Transition

variable {G H : Type}

/-! ## What goes into the pool -/

def Action.isJoin : Action H → Bool
  | .call _ (.join _) => true
  | _ => false

def Action.isClaim : Action H → Bool
  | .call _ (.claim _) => true
  | _ => false

/-- The yield that a step records. -/
def Action.yieldAmount : Action H → ℤ
  | .call _ (.receiveRwaYield _ yieldAmount _) => yieldAmount
  | _ => 0

/-- The entry fee in force. -/
def World.entryFee (w : World G H) : ℤ := (w.storage.config.map ArenaConfig.entryFee).getD 0

/-- The entry fees collected. -/
def fees (tr : List (World G H × Action H)) : ℤ :=
  ((tr.filter fun e => e.2.isJoin).map fun e => e.1.entryFee).sum

/-- The yields recorded. -/
def yields (tr : List (World G H × Action H)) : ℤ := (tr.map fun e => e.2.yieldAmount).sum

/-- What the arena holds beyond the pool and the creator's stake. -/
def surplus (env : Env G H) (tokens : H → Tokens) (w : World G H) (token : Address) : ℤ :=
  (tokens w.outside).balance token env.here - w.storage.loadCreatorStake - w.storage.getPrizePool

/-- The pool is backed by the balance of the arena. -/
def PoolBacked (env : Env G H) (tokens : H → Tokens) (w : World G H) : Prop :=
  ∀ config, w.storage.config = some config → 0 ≤ surplus env tokens w config.token

/-- The claim by `winner` from `t` to `u`, after the steps `tr`, pays the whole pool,
    all fees collected and all yields recorded. -/
def PaysPool (env : Env G H) (tr : List (World G H × Action H)) (t u : World G H)
    (winner : Address) : Prop :=
  ∃ config platformFee prize, t.storage.config = some config ∧
    u.transfers = t.transfers ++ [⟨config.token, env.here, config.admin, platformFee⟩,
      ⟨config.token, env.here, winner, prize⟩] ∧
    prize + platformFee = t.storage.getPrizePool ∧ t.storage.getPrizePool = fees tr + yields tr

/-- No prize has been claimed. -/
def Unclaimed (tr : List (World G H × Action H)) : Prop := ∀ e ∈ tr, e.2.isClaim = false

instance (tr : List (World G H × Action H)) : Decidable (Unclaimed tr) :=
  inferInstanceAs (Decidable (∀ e ∈ tr, _))

/-- The pool is backed until it is claimed, and a claim pays all of it. -/
def PoolKept (env : Env G H) (tokens : H → Tokens) :
    List (World G H × Action H) → World G H → Prop
  | [], u => PoolBacked env tokens u
  | (t, a) :: tr, u =>
    (Unclaimed ((t, a) :: tr) → PoolBacked env tokens u) ∧
      ∀ auths winner, a = .call auths (.claim winner) → PaysPool env tr t u winner

/-- All fees were paid at the rate in force and are counted, and no yield was
    recorded. -/
structure Counted (tr : List (World G H × Action H)) (config : ArenaConfig) : Prop where
  fee : ∀ e ∈ tr, e.2.isJoin = true → e.1.entryFee = config.entryFee
  count : tr.countP (fun e => e.2.isJoin) = config.playerCount
  yield : ∀ e ∈ tr, e.2.yieldAmount = 0

/-- Until the claim, yields and refunds are covered by what the arena holds beyond
    the pool and a new token covers the pool; a claim finds all of the pool counted. -/
def PoolGuarded (env : Env G H) (tokens : H → Tokens) (tr : List (World G H × Action H))
    (t : World G H) : Action H → Prop
  | .call _ (.initializeArena args) => Unclaimed tr → 0 ≤ surplus env tokens t args.token
  | .call _ (.receiveRwaYield _ yieldAmount _) => Unclaimed tr → ∀ config,
    t.storage.config = some config → yieldAmount ≤ surplus env tokens t config.token
  | .call _ (.claimRefund _) => Unclaimed tr → ∀ config,
    t.storage.config = some config → config.entryFee ≤ surplus env tokens t config.token
  | .call _ (.claim _) => ∀ config, t.storage.config = some config → Counted tr config
  | _ => True

instance (tr : List (World G H × Action H)) (config : ArenaConfig) :
    Decidable (Counted tr config) :=
  decidable_of_iff ((∀ e ∈ tr, e.2.isJoin = true → e.1.entryFee = config.entryFee) ∧
    tr.countP (fun e => e.2.isJoin) = config.playerCount ∧ ∀ e ∈ tr, e.2.yieldAmount = 0)
    ⟨fun h => ⟨h.1, h.2.1, h.2.2⟩, fun h => ⟨h.fee, h.count, h.yield⟩⟩

instance (env : Env G H) (tokens : H → Tokens) (tr : List (World G H × Action H))
    (t : World G H) (a : Action H) : Decidable (PoolGuarded env tokens tr t a) :=
  decidable_of_iff ((match a with
    | .call _ (.initializeArena args) => decide (Unclaimed tr → 0 ≤ surplus env tokens t args.token)
    | .call _ (.receiveRwaYield _ yieldAmount _) => decide (Unclaimed tr →
      ∀ config ∈ t.storage.config, yieldAmount ≤ surplus env tokens t config.token)
    | .call _ (.claimRefund _) => decide (Unclaimed tr →
      ∀ config ∈ t.storage.config, config.entryFee ≤ surplus env tokens t config.token)
    | .call _ (.claim _) => decide (∀ config ∈ t.storage.config, Counted tr config)
    | _ => true) = true) (by
      unfold PoolGuarded
      split <;> first | exact decide_eq_true_iff | exact iff_of_true rfl trivial)

/-! ## What a step means -/

/-- The calls that the pool depends on. -/
def Call.concernsPool : Call → Bool
  | .initializeArena _ | .join _ | .claim _ | .claimRefund _ | .depositCreatorStake _ _
  | .withdrawCreatorStake _ | .receiveRwaYield _ _ _ => true
  | _ => false

/-- Two configurations with the same token, the second one with a positive fee if
    the first one has such a fee. -/
structure SamePool (config config' : ArenaConfig) : Prop where
  token : config'.token = config.token
  fee : config'.entryFee = config.entryFee ∨ 0 < config'.entryFee

/-- What a step means for the pool. -/
inductive PoolTurn (env : Env G H) (t u : World G H) : Action H → Prop
  | quiet {a : Action H} : (∀ auths c, a = .call auths c → c.concernsPool = false) →
      u.storage.prizePool = t.storage.prizePool →
      u.storage.creatorStake = t.storage.creatorStake ∨ u.storage.creatorStake = none →
      u.outside = t.outside ∨ env.evolves t.now t.outside u.outside →
      Option.Rel SamePool t.storage.config u.storage.config → PoolTurn env t u a
  | initialized {auths : List Address} {args : InitializeArgs} {config' : ArenaConfig} :
      u.storage.prizePool = t.storage.prizePool →
      u.storage.creatorStake = t.storage.creatorStake → u.outside = t.outside →
      u.storage.config = some config' → config'.token = args.token → 0 < config'.entryFee →
      PoolTurn env t u (.call auths (.initializeArena args))
  | joined {auths : List Address} {player : Address} {config config' : ArenaConfig} :
      env.mayAuthorize player → t.storage.config = some config →
      u.storage.prizePool = some (satAddI128 t.storage.getPrizePool config.entryFee) →
      u.storage.creatorStake = t.storage.creatorStake →
      env.transfer t.now config.token player env.here config.entryFee t.outside =
        some u.outside →
      u.storage.config = some config' → SamePool config config' →
      PoolTurn env t u (.call auths (.join player))
  | claimed {auths : List Address} {winner : Address} {config : ArenaConfig}
      {platformFee prize : ℤ} :
      t.storage.config = some config → u.storage.prizePool = t.storage.prizePool →
      u.storage.creatorStake = t.storage.creatorStake →
      u.storage.config = t.storage.config →
      config.playerCount * config.entryFee ≤ i128Max →
      prize + platformFee = config.playerCount * config.entryFee →
      u.transfers = t.transfers ++ [⟨config.token, env.here, config.admin, platformFee⟩,
        ⟨config.token, env.here, winner, prize⟩] →
      PoolTurn env t u (.call auths (.claim winner))
  | refunded {auths : List Address} {player : Address} {config : ArenaConfig} :
      t.storage.config = some config → u.storage.prizePool = t.storage.prizePool →
      u.storage.creatorStake = t.storage.creatorStake →
      env.transfer t.now config.token env.here player config.entryFee t.outside =
        some u.outside →
      u.storage.config = t.storage.config → PoolTurn env t u (.call auths (.claimRefund player))
  | staked {auths : List Address} {creator : Address} {amount : ℤ}
      {config config' : ArenaConfig} :
      env.mayAuthorize creator → 0 < amount → t.storage.loadCreatorStake ≤ 0 →
      t.storage.config = some config → u.storage.prizePool = t.storage.prizePool →
      u.storage.creatorStake = some amount →
      env.transfer t.now config.token creator env.here amount t.outside = some u.outside →
      u.storage.config = some config' → SamePool config config' →
      PoolTurn env t u (.call auths (.depositCreatorStake creator amount))
  | unstaked {auths : List Address} {creator : Address} {config config' : ArenaConfig}
      {paid : ℤ} :
      t.storage.config = some config → u.storage.prizePool = t.storage.prizePool →
      u.storage.creatorStake = some 0 → paid ≤ t.storage.loadCreatorStake →
      env.transfer t.now config.token env.here creator paid t.outside = some u.outside →
      u.storage.config = some config' → SamePool config config' →
      PoolTurn env t u (.call auths (.withdrawCreatorStake creator))
  | yielded {auths : List Address} {adapter : Address} {yieldAmount : ℤ} {label : String} :
      0 < yieldAmount →
      u.storage.prizePool = some (satAddI128 t.storage.getPrizePool yieldAmount) →
      u.storage.creatorStake = t.storage.creatorStake → u.outside = t.outside →
      u.storage.config = t.storage.config →
      PoolTurn env t u (.call auths (.receiveRwaYield adapter yieldAmount label))

variable {env : Env G H} {tokens : H → Tokens} {auths : List Address} {t u w : World G H}
  {a : Action H} {c : Call} {tr : List (World G H × Action H)}

theorem PoolTurn.of_call {config config' : ArenaConfig} (hcall : c.concernsPool = false)
    (hpool : u.storage.prizePool = t.storage.prizePool)
    (hstake : u.storage.creatorStake = t.storage.creatorStake ∨ u.storage.creatorStake = none)
    (hout : u.outside = t.outside) (hc : t.storage.config = some config)
    (hc' : u.storage.config = some config') (hsame : SamePool config config') :
    PoolTurn env t u (.call auths c) :=
  .quiet (fun _ _ heq => by cases heq; exact hcall) hpool hstake (.inl hout)
    (by rw [hc, hc']; exact .some hsame)

theorem concernsPool_eq_false (h : c.isTuning || c.isGlobal || c.isResolution) :
    c.concernsPool = false := by
  cases c with
  | initializeArena | join | claim | claimRefund => cases h
  | depositCreatorStake | withdrawCreatorStake | receiveRwaYield => cases h
  | _ => rfl

theorem Effect.poolTurn (hauths : ∀ a ∈ auths, env.mayAuthorize a) (h : Effect env auths t c u) :
    PoolTurn env t u (.call auths c) := by
  have hrefl : ∀ config : ArenaConfig, SamePool config config := fun _ => ⟨rfl, .inl rfl⟩
  cases h with
  | initialized hmin =>
    exact .initialized rfl rfl rfl rfl rfl (lt_of_lt_of_le (by norm_num) hmin)
  | @configured fee max deadline config hc _ _ hfee =>
    refine .of_call rfl rfl (.inl rfl) rfl hc rfl ⟨rfl, ?_⟩
    cases fee with
    | none => exact .inl rfl
    | some x => exact .inr (hfee x rfl)
  | tuned ht hc _ hc' =>
    exact .of_call (concernsPool_eq_false (by simp [ht])) rfl (.inl rfl) rfl hc hc'
      ⟨rfl, .inl rfl⟩
  | regulated hg =>
    refine .quiet (fun _ _ heq => ?_) rfl (.inl rfl) (.inl rfl) (rel_self hrefl _)
    cases heq
    exact concernsPool_eq_false (by simp [hg])
  | started hc => exact .of_call rfl rfl (.inl rfl) rfl hc rfl ⟨rfl, .inl rfl⟩
  | finished hc => exact .of_call rfl rfl (.inl rfl) rfl hc rfl ⟨rfl, .inl rfl⟩
  | cancelled hc _ hby =>
    rcases hby with ⟨rfl, -⟩ | ⟨rfl, -⟩
    · exact .of_call rfl rfl (.inl rfl) rfl hc rfl ⟨rfl, .inl rfl⟩
    · exact .of_call rfl rfl (.inl rfl) rfl hc rfl ⟨rfl, .inl rfl⟩
  | proposed hc => exact .of_call rfl rfl (.inl rfl) rfl hc hc (hrefl _)
  | accepted hc => exact .of_call rfl rfl (.inl rfl) rfl hc rfl ⟨rfl, .inl rfl⟩
  | joined hc _ _ _ _ ha htr => exact .joined (hauths _ ha) hc rfl rfl htr rfl ⟨rfl, .inl rfl⟩
  | chosen hc => exact .of_call rfl rfl (.inl rfl) rfl hc hc (hrefl _)
  | roundStarted hc => exact .of_call rfl rfl (.inl rfl) rfl hc hc (hrefl _)
  | committed hc => exact .of_call rfl rfl (.inl rfl) rfl hc hc (hrefl _)
  | revealed hc => exact .of_call rfl rfl (.inl rfl) rfl hc hc (hrefl _)
  | resolved hres hc _ _ hc' =>
    exact .of_call (concernsPool_eq_false (by simp [hres])) rfl (.inl rfl) rfl hc hc'
      ⟨rfl, .inl rfl⟩
  | claimed _ hc _ _ _ _ hsplit =>
    refine .claimed hc rfl rfl rfl hsplit.pot_le ?_ (List.append_assoc _ _ _)
    rw [hsplit.prize]
    omega
  | cleaned hc =>
    rw [ArenaStorage.cleanupArenaData_eq]
    exact .of_call rfl rfl (.inr rfl) rfl hc hc (hrefl _)
  | refunded _ hc _ _ _ htr => exact .refunded hc rfl rfl htr rfl
  | staked ha hpos hnone hc htr =>
    exact .staked (hauths _ ha) hpos hnone hc rfl rfl htr rfl ⟨rfl, .inl rfl⟩
  | unstaked _ hpos hc htr =>
    exact .unstaked hc rfl rfl (withdrawable_le hpos.le) htr rfl ⟨rfl, .inl rfl⟩
  | yielded _ hpos => exact .yielded hpos rfl rfl rfl rfl

theorem Step.poolTurn (h : Step env t a u) : PoolTurn env t u a := by
  have hrefl : ∀ config : ArenaConfig, SamePool config config := fun _ => ⟨rfl, .inl rfl⟩
  cases h with
  | call hauths hexec => exact (exec_effect hexec).poolTurn hauths
  | external hout => exact .quiet nofun rfl (.inl rfl) (.inr hout) (rel_self hrefl _)
  | tick => exact .quiet nofun rfl (.inl rfl) (.inl rfl) (rel_self hrefl _)

/-! ## The sum of all fees and yields -/

theorem fees_cons : fees ((t, a) :: tr) = (if a.isJoin then t.entryFee else 0) + fees tr := by
  unfold fees
  by_cases hjoin : a.isJoin = true
  · simp [hjoin]
  · simp [hjoin]

theorem yields_cons : yields ((t, a) :: tr) = a.yieldAmount + yields tr := by
  unfold yields
  rw [List.map_cons, List.sum_cons]

theorem quiet_adds (h : ∀ auths c, a = .call auths c → c.concernsPool = false) :
    a.isJoin = false ∧ a.isClaim = false ∧ a.yieldAmount = 0 := by
  cases a with
  | call auths c =>
    cases c with
    | initializeArena | join | claim | claimRefund => cases h _ _ rfl
    | depositCreatorStake | withdrawCreatorStake | receiveRwaYield => cases h _ _ rfl
    | _ => exact ⟨rfl, rfl, rfl⟩
  | _ => exact ⟨rfl, rfl, rfl⟩

/-- After the steps `tr`: the pool is the sum of all fees and yields. -/
structure PoolRecorded (tr : List (World G H × Action H)) (w : World G H) : Prop where
  pool : w.storage.getPrizePool = min (fees tr + yields tr) i128Max
  nonneg : 0 ≤ fees tr ∧ 0 ≤ yields tr
  stake : 0 ≤ w.storage.loadCreatorStake
  fee : ∀ config, w.storage.config = some config → 0 < config.entryFee

/-- A step that adds nothing to the pool. -/
theorem PoolRecorded.frame (h : PoolRecorded tr t) (hjoin : a.isJoin = false)
    (hyield : a.yieldAmount = 0) (hpool : u.storage.prizePool = t.storage.prizePool)
    (hstake : 0 ≤ u.storage.loadCreatorStake)
    (hfee : ∀ config, u.storage.config = some config → 0 < config.entryFee) :
    PoolRecorded ((t, a) :: tr) u := by
  have hfees : fees ((t, a) :: tr) = fees tr := by simp [fees_cons, hjoin]
  have hyields : yields ((t, a) :: tr) = yields tr := by simp [yields_cons, hyield]
  refine ⟨?_, by rw [hfees, hyields]; exact h.nonneg, hstake, hfee⟩
  rw [hfees, hyields, ← h.pool]
  exact congrArg (·.getD 0) hpool

theorem PoolRecorded.fee_of_rel (h : PoolRecorded tr t)
    (hrel : Option.Rel SamePool t.storage.config u.storage.config) {config : ArenaConfig}
    (hc : u.storage.config = some config) : 0 < config.entryFee := by
  have hold := h.fee
  rw [hc] at hrel
  generalize t.storage.config = o at hrel hold
  cases hrel with
  | some hsame =>
    rcases hsame.fee with hfee | hpos
    · exact hfee ▸ hold _ rfl
    · exact hpos

theorem PoolRecorded.step (h : PoolRecorded tr t) (hturn : PoolTurn env t u a) :
    PoolRecorded ((t, a) :: tr) u := by
  have hstake_of : u.storage.creatorStake = t.storage.creatorStake →
      0 ≤ u.storage.loadCreatorStake := fun heq => by
    unfold ArenaStorage.loadCreatorStake
    rw [heq]
    exact h.stake
  cases hturn with
  | quiet hcall hpool hstake _ hconfig =>
    obtain ⟨hjoin, -, hyield⟩ := quiet_adds hcall
    refine h.frame hjoin hyield hpool ?_ fun config hc => h.fee_of_rel hconfig hc
    rcases hstake with hstake | hstake
    · exact hstake_of hstake
    · unfold ArenaStorage.loadCreatorStake
      rw [hstake]
      exact le_rfl
  | initialized hpool hstake _ hc' _ hpos =>
    exact h.frame rfl rfl hpool (hstake_of hstake) fun config hc =>
      Option.some.inj (hc'.symm.trans hc) ▸ hpos
  | @joined auths player config config' _ hc hpool hstake _ hc' hsame =>
    have hfee := h.fee config hc
    have hentry : t.entryFee = config.entryFee := by
      unfold World.entryFee
      rw [hc]
      rfl
    obtain ⟨hfees, hyields⟩ := h.nonneg
    refine ⟨?_, ?_, hstake_of hstake, fun config₁ hc₁ => ?_⟩
    · unfold ArenaStorage.getPrizePool
      rw [hpool, Option.getD_some, h.pool, satAddI128_min (by omega) hfee.le, fees_cons,
        yields_cons]
      simp only [Action.isJoin, if_true, Action.yieldAmount, hentry]
      congr 1
      omega
    · rw [fees_cons, yields_cons]
      simp only [Action.isJoin, if_true, Action.yieldAmount, hentry]
      omega
    · cases hc'.symm.trans hc₁
      rcases hsame.fee with heq | hpos
      · exact heq ▸ hfee
      · exact hpos
  | claimed _ hpool hstake hconfig =>
    exact h.frame rfl rfl hpool (hstake_of hstake) fun config hc => h.fee config (hconfig ▸ hc)
  | refunded _ hpool hstake _ hconfig =>
    exact h.frame rfl rfl hpool (hstake_of hstake) fun config hc => h.fee config (hconfig ▸ hc)
  | staked _ hpos _ hc hpool hstake _ hc' hsame =>
    refine h.frame rfl rfl hpool ?_ fun config₁ hc₁ =>
      h.fee_of_rel (u := u) (by rw [hc, hc']; exact .some hsame) hc₁
    unfold ArenaStorage.loadCreatorStake
    rw [hstake]
    exact hpos.le
  | unstaked hc hpool hstake _ _ hc' hsame =>
    refine h.frame rfl rfl hpool ?_ fun config₁ hc₁ =>
      h.fee_of_rel (u := u) (by rw [hc, hc']; exact .some hsame) hc₁
    unfold ArenaStorage.loadCreatorStake
    rw [hstake]
    exact le_rfl
  | @yielded auths adapter yieldAmount label hpos hpool hstake _ hconfig =>
    obtain ⟨hfees, hyields⟩ := h.nonneg
    refine ⟨?_, ?_, hstake_of hstake, fun config hc => h.fee config (hconfig ▸ hc)⟩
    · unfold ArenaStorage.getPrizePool
      rw [hpool, Option.getD_some, h.pool, satAddI128_min (by omega) hpos.le, fees_cons,
        yields_cons]
      simp only [Action.isJoin, Action.yieldAmount, Bool.false_eq_true, if_false]
      congr 1
      omega
    · rw [fees_cons, yields_cons]
      simp only [Action.isJoin, Action.yieldAmount, Bool.false_eq_true, if_false]
      omega

theorem poolRecorded_of_run {globals : G} {outside : H} {now sequence : ℕ}
    (hrun : Run (Step env) (.fresh globals outside now sequence) tr w) : PoolRecorded tr w :=
  hrun.history ⟨rfl, ⟨le_rfl, le_rfl⟩, le_rfl, fun _ hc => by cases hc⟩ fun _ _ _ _ _ h hs => h.step hs.poolTurn

/-! ## What keeps the pool backed -/

/-- A step that takes nothing from the surplus. -/
theorem PoolBacked.of_le (h : PoolBacked env tokens t)
    (hconfig : ∀ config', u.storage.config = some config' →
      ∃ config, t.storage.config = some config ∧ config'.token = config.token)
    (hle : ∀ config, t.storage.config = some config → ∀ x, x = config.token →
      surplus env tokens t x ≤ surplus env tokens u x) : PoolBacked env tokens u := by
  intro config' hc'
  obtain ⟨config, hc, htoken⟩ := hconfig config' hc'
  rw [htoken]
  exact (h config hc).trans (hle config hc _ rfl)

theorem PoolRecorded.pool_le (h : PoolRecorded tr t) {amount : ℤ}
    (hpool : u.storage.prizePool = some (satAddI128 t.storage.getPrizePool amount))
    (h0 : 0 ≤ amount) : u.storage.getPrizePool ≤ t.storage.getPrizePool + amount := by
  obtain ⟨hfees, hyields⟩ := h.nonneg
  have hold : 0 ≤ t.storage.getPrizePool := by
    rw [h.pool]
    exact le_min (by omega) (by unfold i128Max; norm_num)
  show u.storage.prizePool.getD 0 ≤ _
  rw [hpool, Option.getD_some]
  exact satAddI128_le (by omega)

theorem token_of_rel (hrel : Option.Rel SamePool t.storage.config u.storage.config)
    (config' : ArenaConfig) (hc' : u.storage.config = some config') :
    ∃ config, t.storage.config = some config ∧ config'.token = config.token := by
  rw [hc'] at hrel
  generalize t.storage.config = o at hrel
  cases hrel with
  | some hsame => exact ⟨_, rfl, hsame.token⟩

/-- A step before the claim that meets the condition. -/
theorem PoolBacked.step (h : PoolBacked env tokens t) (htok : ExactTokens env tokens)
    (hrec : PoolRecorded tr t) (hturn : PoolTurn env t u a) (hg : PoolGuarded env tokens tr t a)
    (hclaim : Unclaimed ((t, a) :: tr)) : PoolBacked env tokens u := by
  have hpool_of : u.storage.prizePool = t.storage.prizePool →
      u.storage.getPrizePool = t.storage.getPrizePool := fun heq => congrArg (·.getD 0) heq
  have hstake_of : u.storage.creatorStake = t.storage.creatorStake →
      u.storage.loadCreatorStake = t.storage.loadCreatorStake := fun heq => congrArg (·.getD 0) heq
  have hpos := hrec.stake
  have hbefore : Unclaimed tr := fun e he => hclaim e (List.mem_cons_of_mem _ he)
  cases hturn with
  | quiet _ hpool hstake hout hconfig =>
    refine h.of_le (token_of_rel hconfig) fun config hc x _ => ?_
    have hbalance : (tokens t.outside).balance x env.here ≤
        (tokens u.outside).balance x env.here := by
      rcases hout with hout | hout
      · rw [hout]
      · exact htok.evolves hout x
    have hstake' : u.storage.loadCreatorStake ≤ t.storage.loadCreatorStake := by
      rcases hstake with hstake | hstake
      · exact (hstake_of hstake).le
      · unfold ArenaStorage.loadCreatorStake at hpos ⊢
        rw [hstake]
        exact hpos
    unfold surplus
    rw [hpool_of hpool]
    omega
  | initialized hpool hstake hout hc' htoken =>
    intro config hc
    cases hc'.symm.trans hc
    rw [htoken]
    unfold surplus
    rw [hpool_of hpool, hstake_of hstake, hout]
    exact hg hbefore
  | @joined auths player config config' hmay hc hpool hstake htr hc' hsame =>
    refine h.of_le (token_of_rel (by rw [hc, hc']; exact .some hsame)) fun config₁ hc₁ x hx => ?_
    cases hc.symm.trans hc₁
    have hne : player ≠ env.here := fun heq => htok.here (heq ▸ hmay)
    obtain ⟨h0, -, hbalance⟩ := htok.balance htr x
    rw [if_neg fun hself => hne hself.2.symm, if_pos ⟨hx, rfl⟩] at hbalance
    have hpool' := hrec.pool_le hpool h0
    unfold surplus
    rw [hstake_of hstake]
    omega
  | claimed => cases hclaim _ List.mem_cons_self
  | @refunded auths player config hc hpool hstake htr hconfig =>
    intro config₁ hc₁
    rw [hconfig] at hc₁
    cases hc.symm.trans hc₁
    have hcovered : config.entryFee ≤ surplus env tokens t config.token := hg hbefore config hc
    obtain ⟨h0, -, hbalance⟩ := htok.balance htr config.token
    rw [if_pos ⟨rfl, rfl⟩] at hbalance
    unfold surplus at hcovered ⊢
    rw [hpool_of hpool, hstake_of hstake]
    split_ifs at hbalance
    · omega
    · omega
  | @staked auths creator amount config config' hmay h0 hnone hc hpool hstake htr hc' hsame =>
    refine h.of_le (token_of_rel (by rw [hc, hc']; exact .some hsame)) fun config₁ hc₁ x hx => ?_
    cases hc.symm.trans hc₁
    have hne : creator ≠ env.here := fun heq => htok.here (heq ▸ hmay)
    obtain ⟨-, -, hbalance⟩ := htok.balance htr x
    rw [if_neg fun hself => hne hself.2.symm, if_pos ⟨hx, rfl⟩] at hbalance
    have hstake' : u.storage.loadCreatorStake = amount := congrArg (·.getD 0) hstake
    unfold surplus
    rw [hpool_of hpool, hstake']
    omega
  | @unstaked auths creator config config' paid hc hpool hstake hle htr hc' hsame =>
    refine h.of_le (token_of_rel (by rw [hc, hc']; exact .some hsame)) fun config₁ hc₁ x hx => ?_
    cases hc.symm.trans hc₁
    obtain ⟨h0, -, hbalance⟩ := htok.balance htr x
    rw [if_pos ⟨hx, rfl⟩] at hbalance
    have hstake' : u.storage.loadCreatorStake = 0 := congrArg (·.getD 0) hstake
    unfold surplus
    rw [hpool_of hpool, hstake']
    split_ifs at hbalance
    · omega
    · omega
  | @yielded auths adapter yieldAmount label hpos' hpool hstake hout hconfig =>
    intro config hc
    rw [hconfig] at hc
    have hcovered : yieldAmount ≤ surplus env tokens t config.token := hg hbefore config hc
    have hpool' := hrec.pool_le hpool hpos'.le
    unfold surplus at hcovered ⊢
    rw [hout, hstake_of hstake]
    omega

/-! ## Claims -/

theorem fees_eq {fee : ℤ} (h : ∀ e ∈ tr, e.2.isJoin = true → e.1.entryFee = fee) :
    fees tr = tr.countP (fun e => e.2.isJoin) * fee := by
  unfold fees
  rw [List.countP_eq_length_filter, List.sum_eq_card_nsmul _ fee, List.length_map,
    nsmul_eq_mul]
  intro x hx
  obtain ⟨e, he, rfl⟩ := List.mem_map.mp hx
  exact h e (List.mem_filter.mp he).1 (List.mem_filter.mp he).2

/-- A claim that meets the condition. -/
theorem PoolRecorded.paysPool (h : PoolRecorded tr t) {winner : Address}
    (hturn : PoolTurn env t u (.call auths (.claim winner)))
    (hg : PoolGuarded env tokens tr t (.call auths (.claim winner))) :
    PaysPool env tr t u winner := by
  cases hturn with
  | quiet hcall => cases hcall _ _ rfl
  | @claimed auths winner config platformFee prize hc _ _ _ hle hsum htr =>
    obtain ⟨hfee, hcount, hyield⟩ : Counted tr config := hg config hc
    have hfees : fees tr = config.playerCount * config.entryFee := by rw [fees_eq hfee, hcount]
    have hyields : yields tr = 0 := List.sum_eq_zero fun x hx => by
      obtain ⟨e, he, rfl⟩ := List.mem_map.mp hx
      exact hyield e he
    have hpool := h.pool
    rw [hfees, hyields, add_zero, min_eq_left hle] at hpool
    exact ⟨config, platformFee, prize, hc, htr, by rw [hsum, hpool], by
      rw [hpool, hfees, hyields, add_zero]⟩

/-! ## Whole runs -/

theorem poolBacked_of_run {globals : G} {outside : H} {now sequence : ℕ}
    (htok : ExactTokens env tokens)
    (hrun : Run (Step env) (.fresh globals outside now sequence) tr w)
    (heach : EachStep (PoolGuarded env tokens) tr) (hclaim : Unclaimed tr) :
    PoolBacked env tokens w := by
  induction hrun with
  | nil => exact fun _ hc => by cases hc
  | snoc hr hs ih =>
    exact (ih heach.2 fun e he => hclaim e (List.mem_cons_of_mem _ he)).step htok
      (poolRecorded_of_run hr) hs.poolTurn heach.1 hclaim

/-- In every run of any calls by any callers, whose steps are guarded: the
    recorded pool is backed until it is claimed, and a claim pays all of it, the
    fees collected and the yields recorded. -/
theorem poolKept_of_guarded {globals : G} {outside : H} {now sequence : ℕ}
    (htok : ExactTokens env tokens)
    (hrun : Run (Step env) (.fresh globals outside now sequence) tr w)
    (heach : EachStep (PoolGuarded env tokens) tr) : AlongRun (PoolKept env tokens) tr w := by
  refine hrun.alongRun_of_each (fun tr t hr heach => ?_) heach
  cases hr with
  | nil => exact fun _ hc => by cases hc
  | snoc hr hs =>
    refine ⟨fun hclaim => poolBacked_of_run htok (hr.snoc hs) heach hclaim, ?_⟩
    rintro auths winner rfl
    exact (poolRecorded_of_run hr).paysPool hs.poolTurn heach.1

/-- Player 11 wins the pool of two fees. -/
theorem poolKept_of_guarded_sample : ∃ tr w, Run (Step sampleEnv) sampleWorld tr w ∧
    w.transfers = [⟨⟨1⟩, ⟨11⟩, ⟨100⟩, 4000000⟩, ⟨⟨1⟩, ⟨12⟩, ⟨100⟩, 4000000⟩,
      ⟨⟨1⟩, ⟨100⟩, ⟨10⟩, 800000⟩, ⟨⟨1⟩, ⟨100⟩, ⟨11⟩, 7200000⟩] ∧
    AlongRun (PoolKept sampleEnv id) tr w := by
  obtain ⟨tr, w, hrun, heach, hpaid⟩ : ∃ tr w, Run (Step sampleEnv) sampleWorld tr w ∧
      EachStep (PoolGuarded sampleEnv id) tr ∧
      w.transfers = [⟨⟨1⟩, ⟨11⟩, ⟨100⟩, 4000000⟩, ⟨⟨1⟩, ⟨12⟩, ⟨100⟩, 4000000⟩,
        ⟨⟨1⟩, ⟨100⟩, ⟨10⟩, 800000⟩, ⟨⟨1⟩, ⟨100⟩, ⟨11⟩, 7200000⟩] :=
    exists_run (sampleJoins 2 ++ sampleGame ++ [.call [⟨11⟩] (.claim ⟨11⟩)]) (by decide +kernel)
  exact ⟨tr, w, hrun, hpaid, poolKept_of_guarded exactTokens_sampleEnv hrun heach⟩

/-- A yield of 500 is recorded before player 11 claims the prize. -/
theorem not_poolKept : ¬ ∀ tr w, Run (Step sampleEnv) sampleWorld tr w →
    AlongRun (PoolKept sampleEnv id) tr w := by
  intro hall
  obtain ⟨tr, t, u, hrun, hstep, hpool, hpaid⟩ : ∃ tr t u, Run (Step sampleEnv) sampleWorld tr t ∧
      Step sampleEnv t (.call [⟨11⟩] (.claim ⟨11⟩)) u ∧
        t.storage.getPrizePool = 8000500 ∧
        u.transfers = t.transfers ++ [⟨⟨1⟩, ⟨100⟩, ⟨10⟩, 800000⟩, ⟨⟨1⟩, ⟨100⟩, ⟨11⟩, 7200000⟩] :=
    exists_run_call (sampleJoins 2 ++ [.call [⟨13⟩] (.receiveRwaYield ⟨13⟩ 500 "vault")] ++
      sampleGame) [⟨11⟩] (.claim ⟨11⟩) (by decide +kernel)
  obtain ⟨config, platformFee, prize, -, htr, hsum, -⟩ :=
    (hall _ _ (hrun.snoc hstep)).last.2 _ _ rfl
  have hsame := List.append_cancel_left (hpaid.symm.trans htr)
  rw [List.cons.injEq, List.cons.injEq] at hsame
  have hfee : (800000 : ℤ) = platformFee := congrArg Transfer.amount hsame.1
  have hprize : (7200000 : ℤ) = prize := congrArg Transfer.amount hsame.2.1
  omega

end InverseArena.CoinArena
