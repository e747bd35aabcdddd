import InverseArena.Vault.Custody

/-!
# Can cancelled arenas be refunded?

`cancel_arena` fails when the vault does; `force_cancel_arena` ignores the
failure, moves to `Cancelled` all the same, and never withdraws again
(`contract/arena/src/lib.rs`, lines 411-435 and 860-887). `claim_refund` pays
out of the arena's own balance.

Results:
* `Refundable.step`: if no forced cancellation ignores a failing withdrawal, a
  cancelled arena holds the fees of all players not yet refunded.
* `cancelled_refundable`: so all of them can be refunded, in any order.
* `Stranded.step`: a cancelled arena that cannot pay one fee never refunds
  anybody.
* `force_cancel_strands`: one failing withdrawal leads there.
-/

namespace InverseArena.Arena

open MachineInt Transition

variable {H : Type}

/-- The players who have not been refunded. -/
def ArenaStorage.unrefunded (s : ArenaStorage) : List Address :=
  s.loadAllPlayers.filter fun p => !s.isRefundClaimed p

/-- A forced cancellation does not ignore a failing withdrawal, unless nobody
    has joined. -/
def CancelsSafely (env : Env H) (w : World H) : Action H → Prop
  | .call _ .forceCancelArena => ∀ config ∈ w.storage.config, config.state ≠ .Cancelled →
      config.playerCount = 0 ∨
        (env.withdrawAll w.now config.yieldVault env.here w.outside).isSome = true
  | _ => True

instance (env : Env H) (w : World H) (a : Action H) : Decidable (CancelsSafely env w a) :=
  match a with
  | .call _ .forceCancelArena => inferInstanceAs (Decidable (∀ config ∈ _, _ → _))
  | .call _ (.initializeArena _) | .call _ (.proposeUpgrade _)
  | .call _ (.configurePlayerLimits _ _) | .call _ (.banPlayer _) | .call _ (.unbanPlayer _)
  | .call _ (.proposeAdmin _) | .call _ .acceptAdmin | .call _ (.changeAdmin _)
  | .call _ (.pause _) | .call _ .unpause | .call _ (.configureLeaderboardLimit _)
  | .call _ (.joinArena _) | .call _ (.submitCommitment _ _) | .call _ (.revealChoice _ _ _)
  | .call _ (.startRound _) | .call _ .resolveRound | .call _ .cancelArena | .call _ .expireArena
  | .call _ (.claim _) | .call _ (.claimRefund _) | .external _ | .tick _ => isTrue trivial

/-- Something that happens outside the arena. -/
def Action.isExternal : Action H → Bool
  | .external _ => true
  | _ => false

section Unrefunded

variable {s s' : ArenaStorage}

theorem unrefunded_eq_all (h : ∀ p, s.isRefundClaimed p = false) :
    s.unrefunded = s.loadAllPlayers := by
  unfold ArenaStorage.unrefunded
  rw [List.filter_eq_self]
  intro p _
  rw [h p]
  rfl

theorem unrefunded_congr (hplayers : s'.players = s.players)
    (hrefund : s'.refundClaimed = s.refundClaimed) : s'.unrefunded = s.unrefunded := by
  unfold ArenaStorage.unrefunded ArenaStorage.loadAllPlayers ArenaStorage.isRefundClaimed
  rw [hplayers, hrefund]

/-- A refund takes one player off the list. -/
theorem unrefunded_refund {p : Address} (hplayers : s'.players = s.players)
    (hrefund : s'.refundClaimed = Function.update s.refundClaimed p (some true)) :
    s'.unrefunded = s.unrefunded.filter fun q => q ≠ p := by
  unfold ArenaStorage.unrefunded ArenaStorage.loadAllPlayers ArenaStorage.isRefundClaimed
  rw [hplayers, hrefund, List.filter_filter]
  apply List.filter_congr
  intro q _
  by_cases hq : q = p
  · subst hq
    simp
  · rw [Function.update_of_ne hq]
    simp [hq]

theorem length_unrefunded_refund (hnodup : s.loadAllPlayers.Nodup) {p : Address}
    (hp : p ∈ s.unrefunded) (hplayers : s'.players = s.players)
    (hrefund : s'.refundClaimed = Function.update s.refundClaimed p (some true)) :
    s'.unrefunded.length + 1 = s.unrefunded.length := by
  have hfilter : s.unrefunded.Nodup := hnodup.filter _
  have hpos := List.length_pos_of_mem hp
  have heq : s'.unrefunded = s.unrefunded.erase p := by
    rw [unrefunded_refund hplayers hrefund, hfilter.erase_eq_filter]
    apply List.filter_congr
    intro q _
    by_cases hq : q = p <;> simp [hq]
  rw [heq, List.length_erase_of_mem hp]
  omega

end Unrefunded

namespace HonestVault

variable {env : Env H} {token vault : Address} (V : HonestVault env token vault)

/-- A cancelled arena holds the fees of all players not yet refunded. -/
def Refundable (w : World H) : Prop :=
  ∀ config, w.storage.config = some config → config.Uses token vault →
    config.state = .Cancelled →
      config.entryFee * w.storage.unrefunded.length ≤ V.balance w.outside env.here

/-- A cancelled arena that cannot pay a single fee. -/
def Stranded (w : World H) : Prop :=
  ∃ config, w.storage.config = some config ∧ config.Uses token vault ∧
    config.state = .Cancelled ∧ V.balance w.outside env.here < config.entryFee

section Steps

variable {V} {start : H} {tr : List (World H × Action H)} {w w' : World H} {a : Action H}
  {auths : List Address} {c : Call} {config config' : ArenaConfig}

/-- Not cancelled, nothing to hold. -/
theorem Refundable.of_state (hc' : w'.storage.config = some config')
    (hs : config'.state ≠ .Cancelled) : V.Refundable w' := by
  intro config hc _ hcan
  obtain rfl := Option.some.inj (hc'.symm.trans hc)
  exact absurd hcan hs

theorem Refundable.frame (h : V.Refundable w) (hc : w.storage.config = some config)
    (hc' : w'.storage.config = some config')
    (huses : config'.Uses token vault → config.Uses token vault)
    (hstate : config'.state = config.state) (hfee : config'.entryFee = config.entryFee)
    (hplayers : w'.storage.players = w.storage.players)
    (hrefund : w'.storage.refundClaimed = w.storage.refundClaimed)
    (hbal : V.balance w.outside env.here ≤ V.balance w'.outside env.here) : V.Refundable w' := by
  intro config'' hc'' hv hcan
  obtain rfl := Option.some.inj (hc'.symm.trans hc'')
  rw [hfee, unrefunded_congr hplayers hrefund]
  exact (h config hc (huses hv) (by rw [← hstate]; exact hcan)).trans hbal

/-- Before the first refund the fees to be refunded are the stakes. -/
theorem fees_unrefunded (hw : WellFormed w) (hpay : Payouts w)
    (hc : w.storage.config = some config) (hs : config.state = .Open ∨ config.state = .Active)
    (hplayers : w'.storage.players = w.storage.players)
    (hrefund : w'.storage.refundClaimed = w.storage.refundClaimed) :
    config.entryFee * w'.storage.unrefunded.length = config.stakes := by
  have hplaying : InState w .Open ∨ InState w .Active :=
    hs.imp (fun hs => ⟨config, hc, hs⟩) fun hs => ⟨config, hc, hs⟩
  rw [unrefunded_congr hplayers hrefund, unrefunded_eq_all (hpay.undecided hplaying).2.1,
    ← hw.count config hc]
  rfl

/-- The withdrawal at a cancellation brings all stakes into the arena. -/
theorem Refundable.of_withdrawal (h : V.Custody start tr w) (hw : WellFormed w)
    (hpay : Payouts w) (hc : w.storage.config = some config)
    (hs : config.state = .Open ∨ config.state = .Active) (hv : config.Uses token vault)
    (hwd : config.playerCount = 0 ∨ ∃ x,
      env.withdrawAll w.now config.yieldVault env.here w.outside = some (x, w'.outside))
    (hbal : V.balance w.outside env.here ≤ V.balance w'.outside env.here)
    (hplayers : w'.storage.players = w.storage.players)
    (hrefund : w'.storage.refundClaimed = w.storage.refundClaimed) :
    config.entryFee * w'.storage.unrefunded.length ≤ V.balance w'.outside env.here := by
  have hplaying : InState w .Open ∨ InState w .Active :=
    hs.imp (fun hs => ⟨config, hc, hs⟩) fun hs => ⟨config, hc, hs⟩
  have hnonneg := V.balance_nonneg w.outside
  rw [fees_unrefunded hw hpay hc hs hplayers hrefund]
  rcases hwd with hzero | ⟨x, hwd⟩
  · have hstakes : config.stakes = 0 := by
      unfold ArenaConfig.stakes
      rw [hzero]
      exact mul_zero _
    omega
  · obtain ⟨-, hle⟩ := h.held config hc hv (hplaying.imp id .inl)
    rw [hv.2] at hwd
    obtain ⟨-, -, hfull⟩ := V.withdrawAll_spec hwd
    omega

theorem Refundable.effect (h : V.Refundable w) (hcust : V.Custody start tr w)
    (hw : WellFormed w) (hpay : Payouts w) (hauths : ∀ a ∈ auths, env.mayAuthorize a)
    (hsafe : CancelsSafely env w (.call auths c)) (he : Effect env auths w c w') :
    V.Refundable w' := by
  cases he with
  | initialized ha hnone hfee hlim hbal =>
    exact .of_state rfl (by unfold InitializeArgs.config; simp)
  | administered hadm hc hc' hlim hadmin => exact h.frame hc hc' id rfl rfl rfl rfl le_rfl
  | joined hguard ha hc hp hs hne hban hnone hmax htr hdep =>
    exact .of_state rfl (by dsimp only; rw [hs]; simp)
  | committed ha hc hp hs hnow hpl hpa => exact h.frame hc hc id rfl rfl rfl rfl le_rfl
  | revealed ha hc hp hpl hpa hchoice hnow hopen => exact h.frame hc hc id rfl rfl rfl rfl le_rfl
  | roundStarted hc ha hp hs hmin => exact .of_state rfl (by simp)
  | roundResolved hguard hc ha hp hs hstart hnow =>
    obtain ⟨bps, eliminated, events, heq⟩ := @settleRound_eq H env w _ hw.nodup
    rw [heq]
    exact .of_state rfl (by dsimp only; split_ifs <;> simp)
  | @cancelled config outside hguard hc ha hp hs hwd =>
    intro config' hc' hv _
    cases hc'
    have hv' : config.Uses token vault := hv
    show config.entryFee * _ ≤ V.balance outside env.here
    unfold withdrawIfJoined at hwd
    split_ifs at hwd with hpos
    · obtain ⟨⟨x, outside⟩, hr, rfl⟩ := Option.map_eq_some_iff.mp hwd
      obtain ⟨-, -, hfull⟩ := V.withdrawAll_spec (hv'.2 ▸ hr)
      have hnonneg := V.position_nonneg w.outside
      exact Refundable.of_withdrawal hcust hw hpay hc (.inl hs) hv' (.inr ⟨x, hr⟩)
        (by dsimp only; omega) rfl rfl
    · obtain rfl := Option.some.inj hwd
      exact Refundable.of_withdrawal hcust hw hpay hc (.inl hs) hv' (.inl (by omega)) le_rfl rfl rfl
  | expired hguard hc hp hs hnow hwd hpayEach => exact .of_state rfl (by simp)
  | claimed hguard ha hc hp hs hclaimed hwin hwd htotal htr => exact .of_state rfl (by simp)
  | @forceCancelled config hguard hc ha hs =>
    intro config' hc' hv _
    cases hc'
    have hv' : config.Uses token vault := hv
    show config.entryFee * _ ≤ V.balance (Option.getD _ w.outside) env.here
    have hnot : config.state ≠ .Cancelled := by
      rcases hs with hs | hs <;> rw [hs] <;> simp
    refine Refundable.of_withdrawal hcust hw hpay hc hs hv'
      ((hsafe config hc hnot).imp id fun hsome => ?_) ?_ rfl rfl
    · obtain ⟨⟨x, outside⟩, hr⟩ := Option.isSome_iff_exists.mp hsome
      exact ⟨x, by dsimp only; rw [hr]; rfl⟩
    · dsimp only
      cases hr : env.withdrawAll w.now config.yieldVault env.here w.outside with
      | none => exact le_rfl
      | some r =>
        obtain ⟨-, -, hfull⟩ := V.withdrawAll_spec (hv'.2 ▸ hr)
        have hnonneg := V.position_nonneg w.outside
        show V.balance w.outside env.here ≤ V.balance r.2 env.here
        omega
  | forceCancelledAgain hguard hc ha hs => exact h.frame hc hc id rfl rfl rfl rfl le_rfl
  | @refunded player config outside ha hc hs href hpl htr =>
    intro config' hc' hv hcan
    obtain rfl := Option.some.inj (hc.symm.trans hc')
    have hother := V.ne_here hauths ha
    rw [hv.1] at htr
    obtain ⟨-, hout, -⟩ := V.transfer_spec htr
    obtain ⟨-, -, hpaid⟩ := hout rfl hother
    have hbefore := h config hc hv hcan
    have hmem : player ∈ w.storage.unrefunded :=
      List.mem_filter.mpr ⟨(hw.known player).mp hpl, by rw [href]; rfl⟩
    have hlen := @length_unrefunded_refund w.storage
      { w.storage with
        refundClaimed := Function.update w.storage.refundClaimed player (some true) }
      hw.nodup player hmem rfl rfl
    rw [← hlen] at hbefore
    push_cast at hbefore
    rw [mul_add, mul_one] at hbefore
    dsimp only
    omega

theorem Refundable.step (h : V.Refundable w) (hcust : V.Custody start tr w) (hw : WellFormed w)
    (hpay : Payouts w) (hsafe : CancelsSafely env w a) (hs : Step env w a w') :
    V.Refundable w' := by
  cases hs with
  | call hauths hexec => exact h.effect hcust hw hpay hauths hsafe (exec_effect hexec)
  | external he =>
    intro config hc hv hcan
    exact (h config hc hv hcan).trans (V.evolves_spec he).2
  | tick _ _ => exact h

theorem refundable_of_run {now : ℕ} (hrun : Run (Step env) (World.fresh start now) tr w)
    (hsafe : ∀ e ∈ tr, CancelsSafely env e.1 e.2) : V.Refundable w := by
  refine hrun.history (I := fun tr w => (∀ e ∈ tr, CancelsSafely env e.1 e.2) → V.Refundable w)
    (fun _ config hc => ?_) (fun tr t a u hr ih hs hsafe => ?_) hsafe
  · cases hc
  · obtain ⟨⟨hw, hpay⟩, -⟩ := run_of_fresh hr
    exact (ih fun e he => hsafe e (List.mem_cons_of_mem _ he)).step (V.custody_of_run hr) hw hpay
      (hsafe _ List.mem_cons_self) hs

/-- A cancelled arena that holds a fee refunds a player who was not refunded. -/
theorem exists_refund (hpays : V.Pays) {p : Address} (hw : WellFormed w)
    (hauth : Authorized env w) (hc : w.storage.config = some config)
    (hv : config.Uses token vault) (hcan : config.state = .Cancelled)
    (hp : p ∈ w.storage.unrefunded) (hbal : config.entryFee ≤ V.balance w.outside env.here) :
    ∃ w', Step env w (.call [p] (.claimRefund p)) w' ∧ w'.storage.config = some config ∧
      w'.transfers = w.transfers ++ payments env token config.entryFee [p] ∧
      w'.storage.unrefunded = (w.storage.unrefunded.filter fun q => q ≠ p) ∧
      V.balance w'.outside env.here = V.balance w.outside env.here - config.entryFee := by
  obtain ⟨hplays, hno⟩ := List.mem_filter.mp hp
  have hmay := hauth.players p hplays
  have hother : p ≠ env.here := by
    rintro rfl
    exact V.unauthorized hmay
  obtain ⟨outside, htr⟩ := hpays w.now p config.entryFee w.outside (hw.fee config hc).le hbal
  obtain ⟨-, hout, -⟩ := V.transfer_spec htr
  obtain ⟨-, -, hpaid⟩ := hout rfl hother
  rw [← hv.1] at htr
  have hauths : ∀ a ∈ [p], env.mayAuthorize a := by
    intro a ha
    rw [List.mem_singleton.mp ha]
    exact hmay
  refine ⟨_, .call hauths (exec_of_effect rfl (.refunded (List.mem_singleton.mpr rfl) hc hcan
    (by simpa using hno) ((hw.known p).mpr hplays) htr)), hc, ?_, unrefunded_refund rfl rfl, hpaid⟩
  rw [← hv.1]
  rfl

/-- A cancelled arena that holds their fees refunds the players `l`, in this
    order. -/
theorem exists_refunds (hpays : V.Pays) {l : List Address} (hw : WellFormed w)
    (hauth : Authorized env w) (hc : w.storage.config = some config)
    (hv : config.Uses token vault) (hcan : config.state = .Cancelled) (hnodup : l.Nodup)
    (hl : ∀ p ∈ l, p ∈ w.storage.unrefunded)
    (hbal : config.entryFee * l.length ≤ V.balance w.outside env.here) :
    ∃ tr' w', Run (Step env) w tr' w' ∧
      (tr'.reverse.map fun e => e.2) = l.map (fun p => .call [p] (.claimRefund p)) ∧
      w'.storage.config = some config ∧
      w'.transfers = w.transfers ++ payments env token config.entryFee l ∧
      w'.storage.unrefunded = w.storage.unrefunded.filter fun q => q ∉ l := by
  induction l generalizing w with
  | nil => exact ⟨[], w, .nil, rfl, hc, by simp [payments], by simp⟩
  | cons p l ih =>
    obtain ⟨hp, hl⟩ := List.forall_mem_cons.mp hl
    obtain ⟨hnew, hnodup⟩ := List.nodup_cons.mp hnodup
    have hfee := hw.fee config hc
    have hrest : 0 ≤ config.entryFee * (l.length : ℤ) := by positivity
    rw [List.length_cons] at hbal
    push_cast at hbal
    rw [mul_add, mul_one] at hbal
    obtain ⟨w₁, hstep, hc₁, htransfers₁, hunref₁, hbal₁⟩ :=
      exists_refund hpays hw hauth hc hv hcan hp (by omega)
    have hl₁ : ∀ q ∈ l, q ∈ w₁.storage.unrefunded := by
      intro q hq
      rw [hunref₁]
      refine List.mem_filter.mpr ⟨hl q hq, ?_⟩
      have hne : q ≠ p := by
        rintro rfl
        exact hnew hq
      simpa using hne
    obtain ⟨tr', w', hrun, hcalls, hc', htransfers, hunref⟩ := ih (hw.step hstep)
      (hauth.step hw hstep)
      hc₁ hnodup hl₁ (by omega)
    refine ⟨tr' ++ [_], w', (Run.single hstep).append hrun, ?_, hc', ?_, ?_⟩
    · rw [List.reverse_append, List.map_append, hcalls]
      rfl
    · rw [htransfers, htransfers₁, List.append_assoc]
      rfl
    · rw [hunref, hunref₁, List.filter_filter]
      apply List.filter_congr
      intro q _
      by_cases hq : q = p <;> simp [hq]

/-- Nothing that is called changes that, and nobody is refunded. -/
theorem Stranded.step (h : V.Stranded w) (hs : Step env w a w') (ha : a.isExternal = false) :
    V.Stranded w' ∧ w'.storage.unrefunded = w.storage.unrefunded := by
  obtain ⟨config, hc, hv, hcan, hpoor⟩ := h
  have hin : InState w .Cancelled := ⟨config, hc, hcan⟩
  cases hs with
  | call hauths hexec =>
    cases exec_effect hexec with
    | initialized ha hnone => rw [hnone] at hc; cases hc
    | administered hadm hc' hc'' hlim hadmin =>
      obtain rfl := Option.some.inj (hc.symm.trans hc')
      exact ⟨⟨_, hc'', hv, hcan, hpoor⟩, unrefunded_congr rfl rfl⟩
    | joined hguard hauth hc' hp hs => exact hin.elim hc' hs (by simp)
    | committed hauth hc' hp hs => exact hin.elim hc' hs (by simp)
    | revealed hauth hc' hp hpl hpa hchoice hnow hopen =>
      exact ⟨⟨config, hc, hv, hcan, hpoor⟩, unrefunded_congr rfl rfl⟩
    | roundStarted hc' hauth hp hs => exact hin.elim hc' hs (by simp)
    | roundResolved hguard hc' hauth hp hs => exact hin.elim hc' hs (by simp)
    | cancelled hguard hc' hauth hp hs => exact hin.elim hc' hs (by simp)
    | expired hguard hc' hp hs => exact hin.elim hc' hs (by simp)
    | claimed hguard hauth hc' hp hs => exact hin.elim hc' hs (by simp)
    | forceCancelled hguard hc' hauth hs =>
      rcases hs with hs | hs
      · exact hin.elim hc' hs (by simp)
      · exact hin.elim hc' hs (by simp)
    | forceCancelledAgain hguard hc' hauth hs =>
      exact ⟨⟨config, hc, hv, hcan, hpoor⟩, unrefunded_congr rfl rfl⟩
    | @refunded player config' outside hauth hc' hs href hpl htr =>
      obtain rfl := Option.some.inj (hc.symm.trans hc')
      have hother := V.ne_here hauths hauth
      rw [hv.1] at htr
      obtain ⟨-, hout, -⟩ := V.transfer_spec htr
      obtain ⟨-, hle, -⟩ := hout rfl hother
      omega
  | external _ => cases ha
  | tick _ _ => exact ⟨⟨config, hc, hv, hcan, hpoor⟩, rfl⟩

theorem Stranded.run {w₀ : World H} (h : V.Stranded w₀) (hrun : Run (Step env) w₀ tr w)
    (hcalls : ∀ e ∈ tr, e.2.isExternal = false) :
    w.storage.unrefunded = w₀.storage.unrefunded := by
  have hboth : V.Stranded w ∧ w.storage.unrefunded = w₀.storage.unrefunded :=
    hrun.invariant_of_forall
      (I := fun w => V.Stranded w ∧ w.storage.unrefunded = w₀.storage.unrefunded)
      (C := fun _ a => a.isExternal = false)
      (fun _ _ _ hi ha hs => ⟨(hi.1.step hs ha).1, (hi.1.step hs ha).2.trans hi.2⟩) hcalls ⟨h, rfl⟩
  exact hboth.2

end Steps

end HonestVault

variable {env : Env H} {token vault : Address} {V : HonestVault env token vault} {start : H}
  {now : ℕ} {tr : List (World H × Action H)} {w : World H} {config : ArenaConfig}

/-- In every run with an honest vault, whose calls may fail: if no forced
    cancellation ignored a failing withdrawal while players had joined, then in
    every cancelled state all players not yet refunded can claim their refunds,
    in any order `l`, and are paid the entry fee. -/
theorem cancelled_refundable (hpays : V.Pays)
    (hrun : Run (Step env) (World.fresh start now) tr w)
    (hsafe : ∀ e ∈ tr, CancelsSafely env e.1 e.2) (hc : w.storage.config = some config)
    (hv : config.Uses token vault) (hcan : config.state = .Cancelled) {l : List Address}
    (hl : l.Perm w.storage.unrefunded) :
    ∃ tr' w', Run (Step env) w tr' w' ∧
      (tr'.reverse.map fun e => e.2) = l.map (fun p => .call [p] (.claimRefund p)) ∧
      w'.transfers = w.transfers ++ payments env token config.entryFee l ∧
      w'.storage.unrefunded = [] := by
  have hw := wellFormed_of_run hrun
  have hbal := V.refundable_of_run hrun hsafe config hc hv hcan
  rw [← hl.length_eq] at hbal
  obtain ⟨tr', w', hrun', hcalls, -, htransfers, hunref⟩ := HonestVault.exists_refunds hpays hw
    (authorized_of_run hrun) hc hv hcan (hl.nodup_iff.mpr (hw.nodup.filter _))
    (fun p hp => hl.mem_iff.mp hp) hbal
  refine ⟨tr', w', hrun', hcalls, htransfers, ?_⟩
  rw [hunref, List.filter_eq_nil_iff]
  intro p hp
  simp [hl.mem_iff.mpr hp]

/-- After a forced cancellation in the first round, player 12 and then player
    11 are refunded. -/
theorem cancelled_refundable_game : ∃ tr w tr' w',
    Run (Step (reference true)) (World.fresh VaultState.sample 0) tr w ∧
      InState w .Cancelled ∧ Run (Step (reference true)) w tr' w' ∧
      w'.transfers = w.transfers ++ [⟨⟨1⟩, ⟨0⟩, ⟨12⟩, 100⟩, ⟨⟨1⟩, ⟨0⟩, ⟨11⟩, 100⟩] := by
  obtain ⟨tr, w, hrun, hsafe, hl, config, hc, hcan, hv, hfee⟩ : ∃ tr w,
      Run (Step (reference true)) (World.fresh VaultState.sample 0) tr w ∧
        (∀ e ∈ tr, CancelsSafely (reference true) e.1 e.2) ∧
        [⟨12⟩, ⟨11⟩].Perm w.storage.unrefunded ∧ ∃ config ∈ w.storage.config,
          config.state = .Cancelled ∧ (config.stakeToken = ⟨1⟩ ∧ config.yieldVault = ⟨2⟩) ∧
          config.entryFee = 100 :=
    exists_run (sampleGame 100 ++ [.call [⟨10⟩] .forceCancelArena]) (by decide +kernel)
  obtain ⟨tr', w', hrun', -, htransfers, -⟩ :=
    cancelled_refundable (referenceVault_pays true) hrun hsafe hc hv hcan hl
  refine ⟨tr, w, tr', w', hrun, ⟨config, hc, hcan⟩, hrun', ?_⟩
  rw [htransfers, hfee]
  rfl

/-- The vault is out of order while the arena is cancelled by force: when it
    works again, no sequence of calls refunds anybody. -/
theorem force_cancel_strands : ∃ tr w,
    Run (Step (reference true)) (World.fresh VaultState.sample 0) tr w ∧
      InState w .Cancelled ∧ w.storage.unrefunded = [⟨11⟩, ⟨12⟩] ∧ w.outside.down = false ∧
      ∀ tr' w', Run (Step (reference true)) w tr' w' → (∀ e ∈ tr', e.2.isExternal = false) →
        w'.storage.unrefunded = [⟨11⟩, ⟨12⟩] := by
  obtain ⟨tr, w, hrun, hcan, hunref, hup, config, hc, hv, hs, hpoor⟩ : ∃ tr w,
      Run (Step (reference true)) (World.fresh VaultState.sample 0) tr w ∧
        InState w .Cancelled ∧ w.storage.unrefunded = [⟨11⟩, ⟨12⟩] ∧ w.outside.down = false ∧
        ∃ config ∈ w.storage.config, (config.stakeToken = ⟨1⟩ ∧ config.yieldVault = ⟨2⟩) ∧
          config.state = .Cancelled ∧
          (referenceVault true).balance w.outside ⟨0⟩ < config.entryFee :=
    exists_run
      (sampleJoins 100 ++
        [.outside (.outage true), .call [⟨10⟩] .forceCancelArena, .outside (.outage false)])
      (by decide +kernel)
  have hstranded : (referenceVault true).Stranded w := ⟨config, hc, hv, hs, hpoor⟩
  refine ⟨tr, w, hrun, hcan, hunref, hup, fun tr' w' hrun' hcalls => ?_⟩
  rw [hstranded.run hrun' hcalls, hunref]

end InverseArena.Arena
