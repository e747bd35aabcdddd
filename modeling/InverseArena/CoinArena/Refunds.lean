import InverseArena.CoinArena.Money

/-!
# Money back

What the players of an arena that is never played get back. `join` takes a
player again who has joined already, and a refund pays the fee in force, not
the fee that was paid.

Results:
* `Enrolled.step`: what the arena holds for the players who joined.
* `Enrolled.refund_all`: in a cancelled arena all of them are refunded, in any
  order.
* `moneyBack_iff`: everybody is listed once and gets back what it paid all
  along exactly the runs in which nobody joins twice and the fee in force at the
  cancellation is the one that every player has paid.
-/

namespace InverseArena.CoinArena

open Host KeyedMap MachineInt Transition

variable {G H : Type}

/-- Joins, configurations, cancellation or expiry, and refunds. -/
def Call.isEnrolment : Call → Bool
  | .join _ | .configureArena _ _ _ | .cancelArena | .expireArena | .claimRefund _ => true
  | _ => false

/-- The calls to an arena that is set up once and then never played. -/
def Enrols (t : World G H) : Action H → Prop
  | .call _ (.initializeArena _) => t.storage.config = none
  | .call _ c => c.isEnrolment = true
  | _ => True

instance (t : World G H) (a : Action H) : Decidable (Enrols t a) :=
  decidable_of_iff ((match a with
    | .call _ (.initializeArena _) => decide (t.storage.config = none)
    | .call _ c => c.isEnrolment
    | _ => true) = true) (by unfold Enrols; split <;> simp)

/-- `p` has joined. -/
def HasJoined (tr : List (World G H × Action H)) (p : Address) : Prop :=
  ∃ t auths, (t, Action.call auths (.join p)) ∈ tr

/-- Refunds claimed by players one after another, each authorized by the player. -/
def refundEach (env : Env G H) : List Address → World G H → Result ArenaError (World G H)
  | [], w => pure w
  | player :: players, w => do
    let w ← claimRefund env [player] player w
    refundEach env players w

/-- The refunds due in a cancelled arena: in any order they succeed, everybody gets
    back what it paid, and no more is paid out than was collected. -/
def Refundable (env : Env G H) (tr : List (World G H × Action H)) (w : World G H) : Prop :=
  ∀ players : List Address, players.Nodup →
    (∀ p ∈ players, HasJoined tr p ∧ w.storage.isRefundClaimed p = false) →
    ∃ w' token, refundEach env players w = .ok w' ∧
      w'.transfers = w.transfers ++
        players.map (fun p => ⟨token, env.here, p, paidBy env.here p w.transfers⟩) ∧
      spent env.here w'.transfers ≤ received env.here w'.transfers

/-- A refund that was just claimed has paid what the player had paid. -/
def RefundsExactly (env : Env G H) : List (World G H × Action H) → World G H → Prop
  | (t, .call _ (.claimRefund player)) :: _, u =>
    ∃ token, u.transfers = t.transfers ++
      [⟨token, env.here, player, paidBy env.here player t.transfers⟩]
  | _, _ => True

/-- Whoever joined is listed once and gets its money back. -/
structure MoneyBack (env : Env G H) (tr : List (World G H × Action H)) (w : World G H) : Prop where
  once : ∀ p, HasJoined tr p → w.storage.loadAllPlayers.count p = 1
  exact_refund : RefundsExactly env tr w
  refundable : ∀ config, w.storage.config = some config → config.state = .Cancelled →
    Refundable env tr w

/-- Nobody joins twice, and an arena is cancelled under the fee that everybody in it
    has paid. -/
def KeepsFees (env : Env G H) (_ : List (World G H × Action H)) (t : World G H) :
    Action H → Prop
  | .call _ (.join player) => player ∉ t.storage.loadAllPlayers
  | .call _ .cancelArena | .call _ .expireArena => ∀ config, t.storage.config = some config →
    ∀ p ∈ t.storage.loadAllPlayers, paidBy env.here p t.transfers = config.entryFee
  | _ => True

/-! ## What the arena holds for its players -/

/-- What the arena owes to the players who have not been refunded. -/
def owed (env : Env G H) (w : World G H) : ℤ :=
  ((w.storage.loadAllPlayers.filter fun p => !w.storage.isRefundClaimed p).map
    fun p => paidBy env.here p w.transfers).sum

/-- After the steps `tr`, which meet the condition. -/
structure Enrolled (env : Env G H) (tokens : H → Tokens) (tr : List (World G H × Action H))
    (w : World G H) : Prop where
  joined : ∀ p, HasJoined tr p ↔ p ∈ w.storage.loadAllPlayers
  nodup : w.storage.loadAllPlayers.Nodup
  authorized : ∀ p ∈ w.storage.loadAllPlayers, env.mayAuthorize p
  unset : w.storage.config = none →
    w.storage.loadAllPlayers = [] ∧ ∀ p, w.storage.isRefundClaimed p = false
  state : ∀ config, w.storage.config = some config →
    config.state = .Open ∧ (∀ p, w.storage.isRefundClaimed p = false) ∨
    config.state = .Cancelled ∧
      ∀ p ∈ w.storage.loadAllPlayers, paidBy env.here p w.transfers = config.entryFee
  fee : ∀ config, w.storage.config = some config → 0 < config.entryFee
  unpaid : ∀ p, p ∉ w.storage.loadAllPlayers → paidBy env.here p w.transfers = 0
  nonneg : ∀ p, 0 ≤ paidBy env.here p w.transfers
  owed_eq : owed env w = received env.here w.transfers - spent env.here w.transfers
  covered : ∀ config, w.storage.config = some config →
    owed env w ≤ (tokens w.outside).balance config.token env.here

variable {env : Env G H} {tokens : H → Tokens} {auths : List Address} {t u w w' : World G H}
  {a : Action H} {c : Call} {tr : List (World G H × Action H)}

theorem HasJoined.cons {p : Address} {e : World G H × Action H} (h : HasJoined tr p) :
    HasJoined (e :: tr) p := by
  obtain ⟨t, auths, hmem⟩ := h
  exact ⟨t, auths, List.mem_cons_of_mem _ hmem⟩

/-- Another call than a join lets nobody join. -/
theorem hasJoined_cons_iff {p : Address} (hnot : ∀ auths player, a ≠ .call auths (.join player)) :
    HasJoined ((t, a) :: tr) p ↔ HasJoined tr p := by
  refine ⟨fun ⟨t', auths, hmem⟩ => ?_, HasJoined.cons⟩
  rcases List.mem_cons.mp hmem with heq | hmem
  · cases heq
    exact absurd rfl (hnot auths p)
  · exact ⟨t', auths, hmem⟩

theorem hasJoined_join_iff {p player : Address} :
    HasJoined ((t, .call auths (.join player)) :: tr) p ↔ p = player ∨ HasJoined tr p := by
  constructor
  · rintro ⟨t', auths', hmem⟩
    rcases List.mem_cons.mp hmem with heq | hmem
    · cases heq
      exact .inl rfl
    · exact .inr ⟨t', auths', hmem⟩
  · rintro (rfl | h)
    · exact ⟨t, auths, List.mem_cons_self⟩
    · exact h.cons

theorem Enrolled.unrefunded (h : Enrolled env tokens tr t) {config : ArenaConfig}
    (hc : t.storage.config = some config) (hopen : config.state = .Open) (p : Address) :
    t.storage.isRefundClaimed p = false := by
  rcases h.state config hc with ⟨-, hdue⟩ | ⟨hcancelled, -⟩
  · exact hdue p
  · rw [hopen] at hcancelled
    cases hcancelled

theorem Enrolled.paid (h : Enrolled env tokens tr t) {config : ArenaConfig}
    (hc : t.storage.config = some config) (hcancelled : config.state = .Cancelled) :
    ∀ p ∈ t.storage.loadAllPlayers, paidBy env.here p t.transfers = config.entryFee := by
  rcases h.state config hc with ⟨hopen, -⟩ | ⟨-, hpaid⟩
  · rw [hcancelled] at hopen
    cases hopen
  · exact hpaid

/-- The sum over the players not refunded, once one more is. -/
theorem sum_refund {l : List Address} (hl : l.Nodup) {p : Address} (hp : p ∈ l)
    {refunded : Address → Bool} (hr : refunded p = false) (f : Address → ℤ) :
    ((l.filter fun q => !Function.update refunded p true q).map f).sum =
      ((l.filter fun q => !refunded q).map f).sum - f p := by
  have herase : (l.filter fun q => !Function.update refunded p true q) =
      (l.filter fun q => !refunded q).erase p := by
    rw [(hl.filter _).erase_eq_filter, List.filter_filter]
    refine List.filter_congr fun q _ => ?_
    by_cases hq : q = p
    · subst hq
      simp
    · simp [hq]
  have hmem : p ∈ l.filter fun q => !refunded q := List.mem_filter.mpr ⟨hp, by simp [hr]⟩
  rw [herase, ← List.sum_map_erase f hmem]
  omega

/-- Nobody has joined, been refunded or been paid. -/
theorem owed_congr (hplayers : u.storage.players = t.storage.players)
    (hrefund : u.storage.refundClaimed = t.storage.refundClaimed)
    (htransfers : u.transfers = t.transfers) :
    u.storage.loadAllPlayers = t.storage.loadAllPlayers ∧
      u.storage.isRefundClaimed = t.storage.isRefundClaimed ∧ owed env u = owed env t := by
  have hlist : u.storage.loadAllPlayers = t.storage.loadAllPlayers := congrArg (·.getD []) hplayers
  have hclaimed : u.storage.isRefundClaimed = t.storage.isRefundClaimed := by
    funext p
    exact congrArg (fun r => (r p).getD false) hrefund
  refine ⟨hlist, hclaimed, ?_⟩
  unfold owed
  rw [hlist, hclaimed, htransfers]

/-- A step that lets nobody join or be refunded, makes no transfer and keeps the
    token. -/
theorem Enrolled.frame (h : Enrolled env tokens tr t)
    (hnot : ∀ auths player, a ≠ .call auths (.join player))
    (hplayers : u.storage.players = t.storage.players)
    (hrefund : u.storage.refundClaimed = t.storage.refundClaimed)
    (htransfers : u.transfers = t.transfers)
    (hbalance : ∀ token, (tokens t.outside).balance token env.here ≤
      (tokens u.outside).balance token env.here)
    (hunset : u.storage.config = none → t.storage.config = none)
    (hconfig : ∀ config', u.storage.config = some config' →
      (∃ config, t.storage.config = some config ∧ config'.token = config.token) ∧
      0 < config'.entryFee ∧
      (config'.state = .Open ∧ (∀ p, t.storage.isRefundClaimed p = false) ∨
        config'.state = .Cancelled ∧
          ∀ p ∈ t.storage.loadAllPlayers, paidBy env.here p t.transfers = config'.entryFee)) :
    Enrolled env tokens ((t, a) :: tr) u := by
  obtain ⟨hlist, hclaimed, howed⟩ := owed_congr hplayers hrefund htransfers
  exact {
    joined := fun p => by rw [hasJoined_cons_iff hnot, hlist, h.joined]
    nodup := by rw [hlist]; exact h.nodup
    authorized := by rw [hlist]; exact h.authorized
    unset := fun hnone => by rw [hlist, hclaimed]; exact h.unset (hunset hnone)
    state := fun config' hc' => by rw [hlist, hclaimed, htransfers]; exact (hconfig config' hc').2.2
    fee := fun config' hc' => (hconfig config' hc').2.1
    unpaid := by rw [hlist, htransfers]; exact h.unpaid
    nonneg := by rw [htransfers]; exact h.nonneg
    owed_eq := by rw [howed, htransfers, h.owed_eq]
    covered := fun config' hc' => by
      obtain ⟨⟨config, hc, htoken⟩, -⟩ := hconfig config' hc'
      rw [howed, htoken]
      exact (h.covered config hc).trans (hbalance _) }

/-- A step of the surroundings. -/
theorem Enrolled.outside (h : Enrolled env tokens tr t) (hcall : ∀ auths c, a ≠ .call auths c)
    (hstorage : u.storage = t.storage) (htransfers : u.transfers = t.transfers)
    (hbalance : ∀ token, (tokens t.outside).balance token env.here ≤
      (tokens u.outside).balance token env.here) :
    Enrolled env tokens ((t, a) :: tr) u := by
  refine h.frame (fun auths player => hcall auths _) (by rw [hstorage]) (by rw [hstorage])
    htransfers hbalance (fun hnone => by rwa [hstorage] at hnone) fun config hc => ?_
  rw [hstorage] at hc
  exact ⟨⟨config, hc, rfl⟩, h.fee config hc, h.state config hc⟩

theorem Enrolled.join (h : Enrolled env tokens tr t) (htok : ExactTokens env tokens)
    {player : Address} {config : ArenaConfig} (hmay : env.mayAuthorize player)
    (hnew : player ∉ t.storage.loadAllPlayers) (hc : t.storage.config = some config)
    (hopen : config.state = .Open)
    (hpay : env.transfer t.now config.token player env.here config.entryFee t.outside =
      some u.outside)
    (hc' : u.storage.config = some { config with playerCount := config.playerCount + 1 })
    (hplayers : u.storage.players = some (t.storage.loadAllPlayers ++ [player]))
    (hrefund : u.storage.refundClaimed = t.storage.refundClaimed)
    (htransfers : u.transfers =
      t.transfers ++ [⟨config.token, player, env.here, config.entryFee⟩]) :
    Enrolled env tokens ((t, .call auths (.join player)) :: tr) u := by
  have hne : player ≠ env.here := fun heq => htok.here (heq ▸ hmay)
  have hlist : u.storage.loadAllPlayers = t.storage.loadAllPlayers ++ [player] :=
    congrArg (·.getD []) hplayers
  have hclaimed : u.storage.isRefundClaimed = t.storage.isRefundClaimed := by
    funext p
    exact congrArg (fun r => (r p).getD false) hrefund
  have hdue := h.unrefunded hc hopen
  obtain ⟨hreceived, hspent, hpaid⟩ :=
    sums_of_payment hne config.token config.entryFee t.transfers
  rw [← htransfers] at hreceived hspent hpaid
  have hold : ∀ q, q ≠ player → paidBy env.here q u.transfers = paidBy env.here q t.transfers := by
    intro q hq
    rw [hpaid, if_neg (Ne.symm hq), add_zero]
  have hnew' : paidBy env.here player u.transfers = config.entryFee := by
    rw [hpaid, if_pos rfl, h.unpaid player hnew, zero_add]
  have hfee := h.fee config hc
  have howed : owed env u = owed env t + config.entryFee := by
    unfold owed
    rw [hlist, hclaimed, List.filter_append, List.map_append, List.sum_append]
    congr 1
    · refine congrArg List.sum (List.map_congr_left fun q hq => hold q ?_)
      rintro rfl
      exact hnew (List.mem_filter.mp hq).1
    · simp [hdue, hnew']
  obtain ⟨-, -, hbalance⟩ := htok.balance hpay config.token
  rw [if_neg fun hself => hne hself.2.symm, if_pos ⟨rfl, rfl⟩] at hbalance
  exact {
    joined := fun p => by
      rw [hasJoined_join_iff, hlist, h.joined, List.mem_append, List.mem_singleton, or_comm]
    nodup := by
      rw [hlist, ← List.concat_eq_append]
      exact h.nodup.concat hnew
    authorized := fun p hp => by
      rw [hlist] at hp
      rcases List.mem_append.mp hp with hp | hp
      · exact h.authorized p hp
      · exact List.mem_singleton.mp hp ▸ hmay
    unset := fun hnone => by rw [hc'] at hnone; cases hnone
    state := fun config' h' => by
      cases hc'.symm.trans h'
      exact .inl ⟨hopen, by rw [hclaimed]; exact hdue⟩
    fee := fun config' h' => by
      cases hc'.symm.trans h'
      exact hfee
    unpaid := fun p hp => by
      rw [hlist, List.mem_append, List.mem_singleton, not_or] at hp
      rw [hold p hp.2, h.unpaid p hp.1]
    nonneg := fun p => by
      by_cases hp : p = player
      · rw [hp, hnew']
        exact hfee.le
      · rw [hold p hp]
        exact h.nonneg p
    owed_eq := by rw [howed, h.owed_eq, hreceived, hspent]; omega
    covered := fun config' h' => by
      cases hc'.symm.trans h'
      have hcovered := h.covered config hc
      rw [howed]
      show _ ≤ (tokens u.outside).balance config.token env.here
      omega }

theorem Enrolled.refund (h : Enrolled env tokens tr t) (htok : ExactTokens env tokens)
    {player : Address} {config : ArenaConfig} (hc : t.storage.config = some config)
    (hcancelled : config.state = .Cancelled) (hdue : t.storage.isRefundClaimed player = false)
    (hmem : player ∈ t.storage.loadAllPlayers)
    (hpay : env.transfer t.now config.token env.here player config.entryFee t.outside =
      some u.outside)
    (hstorage : u.storage = { t.storage with
      refundClaimed := Function.update t.storage.refundClaimed player (some true) })
    (htransfers : u.transfers =
      t.transfers ++ [⟨config.token, env.here, player, config.entryFee⟩]) :
    Enrolled env tokens ((t, .call auths (.claimRefund player)) :: tr) u := by
  have hne : player ≠ env.here := fun heq => htok.here (heq ▸ h.authorized player hmem)
  have hlist : u.storage.loadAllPlayers = t.storage.loadAllPlayers := by
    rw [hstorage]
    rfl
  have hclaimed : u.storage.isRefundClaimed =
      Function.update t.storage.isRefundClaimed player true := by
    rw [hstorage]
    exact t.storage.isRefundClaimed_update player
  have hconfig : u.storage.config = t.storage.config := by rw [hstorage]
  have hpaid := h.paid hc hcancelled
  obtain ⟨hreceived, hspent, hsame⟩ :=
    sums_of_payout hne config.token config.entryFee t.transfers
  rw [← htransfers] at hreceived hspent hsame
  have howed : owed env u = owed env t - config.entryFee := by
    unfold owed
    simp only [hlist, hclaimed, hsame]
    rw [sum_refund h.nodup hmem hdue, hpaid player hmem]
  obtain ⟨-, -, hbalance⟩ := htok.balance hpay config.token
  rw [if_pos ⟨rfl, rfl⟩, if_neg fun hself => hne hself.2.symm] at hbalance
  exact {
    joined := fun p => by rw [hasJoined_cons_iff (fun _ _ heq => by cases heq), hlist, h.joined]
    nodup := by rw [hlist]; exact h.nodup
    authorized := by rw [hlist]; exact h.authorized
    unset := fun hnone => by rw [hconfig, hc] at hnone; cases hnone
    state := fun config' h' => by
      rw [hconfig] at h'
      cases hc.symm.trans h'
      exact .inr ⟨hcancelled, fun p hp => by rw [hsame]; exact hpaid p (hlist ▸ hp)⟩
    fee := fun config' h' => h.fee config' (hconfig ▸ h')
    unpaid := fun p hp => by rw [hsame]; exact h.unpaid p (hlist ▸ hp)
    nonneg := fun p => by rw [hsame]; exact h.nonneg p
    owed_eq := by rw [howed, h.owed_eq, hreceived, hspent]; omega
    covered := fun config' h' => by
      rw [hconfig] at h'
      cases hc.symm.trans h'
      have hcovered := h.covered config hc
      rw [howed]
      omega }

theorem Enrolled.initialize (h : Enrolled env tokens tr t) {args : InitializeArgs}
    {config' : ArenaConfig} (hnone : t.storage.config = none)
    (hc' : u.storage.config = some config') (hopen : config'.state = .Open)
    (hfee : 0 < config'.entryFee) (hplayers : u.storage.players = t.storage.players)
    (hrefund : u.storage.refundClaimed = t.storage.refundClaimed)
    (htransfers : u.transfers = t.transfers) :
    Enrolled env tokens ((t, .call auths (.initializeArena args)) :: tr) u := by
  obtain ⟨hempty, hdue⟩ := h.unset hnone
  obtain ⟨hlist, hclaimed, howed⟩ := owed_congr hplayers hrefund htransfers
  exact {
    joined := fun p => by
      rw [hasJoined_cons_iff (fun _ _ heq => by cases heq), hlist, h.joined]
    nodup := by rw [hlist]; exact h.nodup
    authorized := by rw [hlist]; exact h.authorized
    unset := fun hnone' => by rw [hc'] at hnone'; cases hnone'
    state := fun config h' => by
      cases hc'.symm.trans h'
      exact .inl ⟨hopen, by rw [hclaimed]; exact hdue⟩
    fee := fun config h' => by
      cases hc'.symm.trans h'
      exact hfee
    unpaid := by rw [hlist, htransfers]; exact h.unpaid
    nonneg := by rw [htransfers]; exact h.nonneg
    owed_eq := by rw [howed, htransfers, h.owed_eq]
    covered := fun config _ => by
      have hzero : owed env t = 0 := by
        unfold owed
        rw [hempty]
        rfl
      rw [howed, hzero]
      exact (tokens u.outside config.token).nonneg env.here }

/-- The rules for abstract calls are about others. -/
theorem not_enrols (h : c.isTuning || c.isGlobal || c.isResolution) :
    ¬ Enrols t (.call auths c : Action H) := by
  intro hdom
  cases c with
  | join | configureArena | cancelArena | expireArena | claimRefund => cases h
  | initializeArena => cases h
  | _ => cases hdom

theorem Enrolled.effect (h : Enrolled env tokens tr t) (htok : ExactTokens env tokens)
    (hauths : ∀ a ∈ auths, env.mayAuthorize a) (heff : Effect env auths t c u)
    (hdom : Enrols t (.call auths c : Action H)) (hg : KeepsFees env tr t (.call auths c)) :
    Enrolled env tokens ((t, .call auths c) :: tr) u := by
  cases heff with
  | @initialized a _ hmin =>
    exact h.initialize hdom rfl rfl (lt_of_lt_of_le (by norm_num) hmin) rfl rfl rfl
  | @configured fee max deadline config hc _ hopen hfee =>
    refine h.frame nofun rfl rfl rfl (fun _ => le_rfl) nofun fun config' hc' => ?_
    cases hc'
    have hold := h.fee config hc
    refine ⟨⟨config, hc, rfl⟩, ?_, .inl ⟨hopen, h.unrefunded hc hopen⟩⟩
    cases fee with
    | none => exact hold
    | some x => exact hfee x rfl
  | @cancelled c config hc hopen hby =>
    have hpaid : ∀ p ∈ t.storage.loadAllPlayers,
        paidBy env.here p t.transfers = config.entryFee := by
      rcases hby with ⟨rfl, -⟩ | ⟨rfl, -⟩
      · exact hg config hc
      · exact hg config hc
    refine h.frame (fun _ _ heq => ?_) rfl rfl rfl (fun _ => le_rfl) nofun fun config' hc' => ?_
    · cases heq
      rcases hby with ⟨hby, -⟩ | ⟨hby, -⟩
      · cases hby
      · cases hby
    · cases hc'
      exact ⟨⟨config, hc, rfl⟩, h.fee config hc, .inr ⟨rfl, hpaid⟩⟩
  | joined hc _ hopen _ _ ha hpay =>
    exact h.join htok (hauths _ ha) hg hc hopen hpay rfl rfl rfl rfl
  | refunded ha hc hcancelled hdue hmem hpay =>
    exact h.refund htok hc hcancelled hdue hmem hpay rfl rfl
  | tuned ht => exact absurd hdom (not_enrols (by simp [ht]))
  | regulated hglobal => exact absurd hdom (not_enrols (by simp [hglobal]))
  | resolved hres => exact absurd hdom (not_enrols (by simp [hres]))
  | _ => cases hdom

theorem Enrolled.step (h : Enrolled env tokens tr t) (htok : ExactTokens env tokens)
    (hs : Step env t a u) (hdom : Enrols t a) (hg : KeepsFees env tr t a) :
    Enrolled env tokens ((t, a) :: tr) u := by
  cases hs with
  | call hauths hexec => exact h.effect htok hauths (exec_effect hexec) hdom hg
  | external hout => exact h.outside nofun rfl rfl fun token => htok.evolves hout token
  | tick => exact h.outside nofun rfl rfl fun _ => le_rfl

/-! ## Refunds in any order -/

theorem Enrolled.terms_nonneg (h : Enrolled env tokens tr w) :
    ∀ x ∈ (w.storage.loadAllPlayers.filter fun p => !w.storage.isRefundClaimed p).map
      fun p => paidBy env.here p w.transfers, 0 ≤ x := by
  intro x hx
  obtain ⟨p, -, rfl⟩ := List.mem_map.mp hx
  exact h.nonneg p

/-- One refund after another. -/
theorem Enrolled.refund_all (htok : ExactTokens env tokens) {config : ArenaConfig}
    {players : List Address} (h : Enrolled env tokens tr w)
    (hc : w.storage.config = some config) (hcancelled : config.state = .Cancelled)
    (hnodup : players.Nodup) (hdue : ∀ p ∈ players,
      p ∈ w.storage.loadAllPlayers ∧ w.storage.isRefundClaimed p = false) :
    ∃ tr' w', refundEach env players w = .ok w' ∧ Enrolled env tokens tr' w' ∧
      w'.transfers = w.transfers ++
        players.map fun p => ⟨config.token, env.here, p, paidBy env.here p w.transfers⟩ := by
  induction players generalizing tr w with
  | nil => exact ⟨tr, w, rfl, h, by simp⟩
  | cons player players ih =>
    obtain ⟨hplayer, hrest⟩ := List.nodup_cons.mp hnodup
    obtain ⟨hmem, hunpaid⟩ := hdue player List.mem_cons_self
    have hpaid := h.paid hc hcancelled player hmem
    have hne : player ≠ env.here := fun heq => htok.here (heq ▸ h.authorized player hmem)
    have hle : config.entryFee ≤ (tokens w.outside).balance config.token env.here := by
      rw [← hpaid]
      refine le_trans ?_ (h.covered config hc)
      exact List.single_le_sum h.terms_nonneg _
        (List.mem_map_of_mem (List.mem_filter.mpr ⟨hmem, by simp [hunpaid]⟩))
    obtain ⟨outside, hpay⟩ : ∃ outside, env.transfer w.now config.token env.here player
        config.entryFee w.outside = some outside :=
      htok.exists_transfer (h.fee config hc).le hle
    have hok := claimRefund_eq_ok.mpr ⟨List.mem_singleton_self player, config, hc, hcancelled,
      hunpaid, hmem, outside, hpay, rfl⟩
    have hauths : ∀ a ∈ [player], env.mayAuthorize a := by simpa using h.authorized player hmem
    have hnext := h.effect htok hauths (claimRefund_effect hok) rfl trivial
    obtain ⟨-, -, hsame⟩ := sums_of_payout hne config.token config.entryFee w.transfers
    obtain ⟨tr', w', hrefunds, hw', htransfers⟩ := ih hnext hc hrest fun p hp => by
      obtain ⟨hp', hdue'⟩ := hdue p (List.mem_cons_of_mem _ hp)
      have hother : p ≠ player := fun heq => hplayer (heq ▸ hp)
      refine ⟨hp', ?_⟩
      rw [ArenaStorage.isRefundClaimed_update, Function.update_of_ne hother]
      exact hdue'
    refine ⟨tr', w', ?_, hw', ?_⟩
    · unfold refundEach
      rw [hok]
      exact hrefunds
    · rw [htransfers]
      simp only [hsame, hpaid, List.append_assoc, List.cons_append, List.nil_append, List.map_cons]

theorem enrolled_of_run {globals : G} {outside : H} {now sequence : ℕ}
    (htok : ExactTokens env tokens)
    (hrun : Run (fun t a u => Step env t a u ∧ Enrols t a) (.fresh globals outside now sequence)
      tr w) (heach : EachStep (KeepsFees env) tr) : Enrolled env tokens tr w := by
  induction hrun with
  | nil =>
    exact {
      joined := fun p => ⟨fun ⟨_, _, hmem⟩ => (List.not_mem_nil hmem).elim, nofun⟩
      nodup := List.nodup_nil
      authorized := nofun
      unset := fun _ => ⟨rfl, fun _ => rfl⟩
      state := nofun
      fee := nofun
      unpaid := fun _ _ => rfl
      nonneg := fun _ => le_rfl
      owed_eq := rfl
      covered := nofun }
  | snoc _ hs ih => exact (ih heach.2).step htok hs.1 hs.2 heach.1

/-! ## One step -/

theorem Enrolled.owed_nonneg (h : Enrolled env tokens tr w) : 0 ≤ owed env w :=
  List.sum_nonneg h.terms_nonneg

theorem Enrolled.refundable (h : Enrolled env tokens tr w) (htok : ExactTokens env tokens)
    {config : ArenaConfig} (hc : w.storage.config = some config)
    (hcancelled : config.state = .Cancelled) : Refundable env tr w := by
  intro players hnodup hdue
  obtain ⟨tr', w', hrefunds, hw', htransfers⟩ := h.refund_all htok hc hcancelled hnodup
    fun p hp => ⟨(h.joined p).mp (hdue p hp).1, (hdue p hp).2⟩
  refine ⟨w', config.token, hrefunds, htransfers, ?_⟩
  have howed := hw'.owed_eq
  have hpos := hw'.owed_nonneg
  omega

theorem Enrolled.refundsExactly (h : Enrolled env tokens tr t) (hs : Step env t a u) :
    RefundsExactly env ((t, a) :: tr) u := by
  cases hs with
  | @call _ auths c _ hexec =>
    cases c with
    | claimRefund player =>
      obtain ⟨-, config, hc, hcancelled, -, hmem, outside, -, rfl⟩ := claimRefund_eq_ok.mp hexec
      refine ⟨config.token, ?_⟩
      rw [h.paid hc hcancelled player hmem]
    | _ => trivial
  | _ => trivial

theorem Enrolled.moneyBack (h : Enrolled env tokens tr t) (htok : ExactTokens env tokens)
    (hs : Step env t a u) (hdom : Enrols t a) (hg : KeepsFees env tr t a) :
    MoneyBack env ((t, a) :: tr) u := by
  have hnext := h.step htok hs hdom hg
  exact {
    once := fun p hp => List.count_eq_one_of_mem hnext.nodup ((hnext.joined p).mp hp)
    exact_refund := h.refundsExactly hs
    refundable := fun config hc hcancelled => hnext.refundable htok hc hcancelled }

/-- A cancellation after which everybody can be refunded. -/
theorem Enrolled.paid_of_refundable (h : Enrolled env tokens tr t) {config : ArenaConfig}
    (hback : Refundable env tr' u) (hjoined : ∀ p, HasJoined tr p → HasJoined tr' p)
    (hc : t.storage.config = some config) (hopen : config.state = .Open)
    (hu : u.storage.config = some { config with state := .Cancelled })
    (hrefund : u.storage.refundClaimed = t.storage.refundClaimed)
    (htransfers : u.transfers = t.transfers) :
    ∀ p ∈ t.storage.loadAllPlayers, paidBy env.here p t.transfers = config.entryFee := by
  intro p hp
  have hdue : u.storage.isRefundClaimed p = false := by
    rw [← h.unrefunded hc hopen p]
    exact congrArg (fun r => (r p).getD false) hrefund
  obtain ⟨w', token, hrefunds, hpaid, -⟩ := hback [p] (List.nodup_singleton p) fun q hq => by
    obtain rfl := List.mem_singleton.mp hq
    exact ⟨hjoined q ((h.joined q).mpr hp), hdue⟩
  unfold refundEach at hrefunds
  obtain ⟨w₁, hfirst, hlast⟩ := Fallible.bind_eq_ok.mp hrefunds
  obtain rfl : w₁ = w' := Fallible.pure_eq_ok.mp hlast
  obtain ⟨-, config', hc', -, -, -, outside, -, rfl⟩ := claimRefund_eq_ok.mp hfirst
  cases hu.symm.trans hc'
  have hsame := List.append_cancel_left hpaid
  rw [htransfers] at hsame
  simpa using (congrArg (List.map Transfer.amount) hsame).symm

/-- A step of a run that has met the condition gives everybody its money back
    exactly when it meets it, too. -/
theorem Enrolled.stays_moneyBack_iff (h : Enrolled env tokens tr t) (htok : ExactTokens env tokens)
    (hs : Step env t a u) (hdom : Enrols t a) :
    MoneyBack env ((t, a) :: tr) u ↔ KeepsFees env tr t a := by
  refine ⟨fun hback => ?_, h.moneyBack htok hs hdom⟩
  cases hs with
  | @call _ auths c _ hexec =>
    have heff := exec_effect hexec
    cases heff with
    | @joined player config =>
      intro hmem
      have hcount := hback.once player (hasJoined_join_iff.mpr (.inl rfl))
      have hold := List.count_pos_iff.mpr hmem
      have hnew : (t.storage.loadAllPlayers ++ [player]).count player = 1 := hcount
      rw [List.count_append, List.count_singleton_self] at hnew
      omega
    | @cancelled c config hc hopen hby =>
      have hpaid : ∀ p ∈ t.storage.loadAllPlayers,
          paidBy env.here p t.transfers = config.entryFee :=
        h.paid_of_refundable (hback.refundable _ rfl rfl) (fun _ => HasJoined.cons) hc hopen
          rfl rfl rfl
      rcases hby with ⟨rfl, -⟩ | ⟨rfl, -⟩
      · exact fun config' hc' => Option.some.inj (hc.symm.trans hc') ▸ hpaid
      · exact fun config' hc' => Option.some.inj (hc.symm.trans hc') ▸ hpaid
    | tuned ht => exact absurd hdom (not_enrols (by simp [ht]))
    | regulated hglobal => exact absurd hdom (not_enrols (by simp [hglobal]))
    | resolved hres => exact absurd hdom (not_enrols (by simp [hres]))
    | _ => trivial
  | external => trivial
  | tick => trivial

/-! ## Whole runs -/

/-- In every run of joins, configurations, cancellation or expiry and refunds:
    each joined player is listed once, each refund pays what the player paid,
    and in a cancelled arena all can be refunded in any order, all along exactly
    the runs in which nobody joins twice and the arena is cancelled under the fee
    that everybody has paid. -/
theorem moneyBack_iff {globals : G} {outside : H} {now sequence : ℕ}
    (htok : ExactTokens env tokens)
    (hrun : Run (Step env) (.fresh globals outside now sequence) tr w)
    (hdom : ∀ e ∈ tr, Enrols e.1 e.2) :
    AlongRun (MoneyBack env) tr w ↔ EachStep (KeepsFees env) tr := by
  refine (hrun.restrict hdom).alongRun_iff_of_each ?_ fun _ _ _ _ hr heach hs =>
    (enrolled_of_run htok hr heach).stays_moneyBack_iff htok hs.1 hs.2
  exact {
    once := fun p ⟨_, _, hmem⟩ => (List.not_mem_nil hmem).elim
    exact_refund := trivial
    refundable := nofun }

/-- Players 11 and 12 join, the arena is cancelled, and 11 is refunded. -/
theorem moneyBack_iff_sample : ∃ tr w, Run (Step sampleEnv) sampleWorld tr w ∧
    w.transfers = [⟨⟨1⟩, ⟨11⟩, ⟨100⟩, 4000000⟩, ⟨⟨1⟩, ⟨12⟩, ⟨100⟩, 4000000⟩,
      ⟨⟨1⟩, ⟨100⟩, ⟨11⟩, 4000000⟩] ∧
    (AlongRun (MoneyBack sampleEnv) tr w ↔ EachStep (KeepsFees sampleEnv) tr) := by
  obtain ⟨tr, w, hrun, hdom, hpaid⟩ : ∃ tr w, Run (Step sampleEnv) sampleWorld tr w ∧
      (∀ e ∈ tr, Enrols e.1 e.2) ∧
      w.transfers = [⟨⟨1⟩, ⟨11⟩, ⟨100⟩, 4000000⟩, ⟨⟨1⟩, ⟨12⟩, ⟨100⟩, 4000000⟩,
        ⟨⟨1⟩, ⟨100⟩, ⟨11⟩, 4000000⟩] :=
    exists_run (sampleJoins 10 ++ [.call [⟨10⟩] .cancelArena, .call [⟨11⟩] (.claimRefund ⟨11⟩)])
      (by decide +kernel)
  exact ⟨tr, w, hrun, hpaid, moneyBack_iff exactTokens_sampleEnv hrun hdom⟩

/-- Player 11 joins twice. -/
theorem not_moneyBack : ¬ ∀ tr w, Run (Step sampleEnv) sampleWorld tr w →
    (∀ e ∈ tr, Enrols e.1 e.2) → AlongRun (MoneyBack sampleEnv) tr w := by
  intro hall
  obtain ⟨tr, t, u, hrun, hstep, hdom, hcount⟩ : ∃ tr t u, Run (Step sampleEnv) sampleWorld tr t ∧
      Step sampleEnv t (.call [⟨11⟩] (.join ⟨11⟩)) u ∧
        (∀ e ∈ tr, Enrols e.1 e.2) ∧ u.storage.loadAllPlayers.count ⟨11⟩ = 2 :=
    exists_run_call (sampleJoins 10) [⟨11⟩] (.join ⟨11⟩) (by decide +kernel)
  have hback := (hall _ _ (hrun.snoc hstep) fun e he => ?_).last
  · rw [hback.once ⟨11⟩ (hasJoined_join_iff.mpr (.inl rfl))] at hcount
    exact absurd hcount (by decide)
  · rcases List.mem_cons.mp he with rfl | he
    · rfl
    · exact hdom e he

end InverseArena.CoinArena
