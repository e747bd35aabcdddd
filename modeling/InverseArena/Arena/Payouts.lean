import InverseArena.Arena.Lifecycle
import InverseArena.Vault.Reference

/-!
# Payouts happen once and exclude each other

The three ways money leaves the arena: `claim`, `claim_refund` and the refunds
of `expire_arena` (`contract/arena/src/lib.rs`, lines 449-484, 706-752 and
890-919). Each needs a flag that it sets and no call resets.

Results:
* `payouts_once`: in every run, whatever the token, vault and oracle do, each
  payout happens at most once, no two kinds happen in one run, and a claim
  pays the only active player.
-/

namespace InverseArena.Arena

open Transition

variable {H : Type}

/-- A call of `claim`. -/
def Action.isClaim : Action H → Bool
  | .call _ (.claim _) => true
  | _ => false

/-- A call of `claim_refund`. -/
def Action.isRefund : Action H → Bool
  | .call _ (.claimRefund _) => true
  | _ => false

/-- A call of `claim_refund` for `player`. -/
def Action.isRefundOf (player : Address) : Action H → Bool
  | .call _ (.claimRefund p) => p = player
  | _ => false

/-- A call of `expire_arena`. -/
def Action.isExpire : Action H → Bool
  | .call _ .expireArena => true
  | _ => false

/-- The last active player has been paid nothing and never will be: the arena
    was expired, or its last round had no survivor. -/
def Unclaimable (w : World H) : Prop := InState w .Finished ∧ w.storage.winner = none

section Steps

variable {env : Env H} {w w' : World H} {a : Action H}

theorem Step.terminal (h : Step env w a w') (hw : WellFormed w) {state : GameState}
    (hterm : ∀ target, canTransition state target = false) (hs : InState w state) :
    InState w' state := by
  cases h with
  | call _ hexec => exact (exec_effect hexec).terminal hw hterm hs
  | external _ => exact hs
  | tick _ _ => exact hs

theorem Step.unclaimable (h : Step env w a w') (hw : WellFormed w) (hs : Unclaimable w) :
    Unclaimable w' := by
  cases h with
  | call _ hexec => exact (exec_effect hexec).unclaimable hw hs.1 hs.2
  | external _ => exact hs
  | tick _ _ => exact hs

/-- A claim settles the arena and marks the prize as claimed. -/
theorem Step.of_claim (h : Step env w a w') (ha : a.isClaim = true) :
    w.storage.isPrizeClaimed = false ∧ w'.storage.isPrizeClaimed = true ∧ InState w' .Settled := by
  cases h with
  | call _ hexec =>
    have he := exec_effect hexec
    unfold Action.isClaim at ha
    split at ha
    · rename_i heq
      cases heq
      cases he with
      | administered hadm => cases hadm
      | claimed hguard hauth hc hp hs hclaimed hwin hwd htotal htr =>
        exact ⟨hclaimed, rfl, _, rfl, rfl⟩
    · cases ha
  | external _ => cases ha
  | tick _ _ => cases ha

/-- A refund marks the player as refunded, in a cancelled arena. -/
theorem Step.of_refund {auths : List Address} {p : Address}
    (h : Step env w (.call auths (.claimRefund p)) w') :
    w.storage.isRefundClaimed p = false ∧ w'.storage.isRefundClaimed p = true ∧
      InState w' .Cancelled := by
  cases h with
  | call _ hexec =>
    cases exec_effect hexec with
    | administered hadm => cases hadm
    | refunded hauth hc hs href hpl htr =>
      refine ⟨href, ?_, _, hc, hs⟩
      unfold ArenaStorage.isRefundClaimed
      dsimp only
      rw [Function.update_self]
      rfl

/-- An expiry leaves a finished arena without a winner. -/
theorem Step.of_expire {auths : List Address} (h : Step env w (.call auths .expireArena) w')
    (hp : Payouts w) : ¬ Unclaimable w ∧ Unclaimable w' := by
  cases h with
  | call _ hexec =>
    cases exec_effect hexec with
    | administered hadm => cases hadm
    | expired hguard hc hpaused hs hnow hwd hpay =>
      have hactive : InState w .Active := ⟨_, hc, hs⟩
      refine ⟨fun hf => ?_, ⟨_, rfl, rfl⟩, (hp.undecided (.inr hactive)).2.2⟩
      cases hactive.unique hf.1

/-- The flags that payouts set are never reset. -/
theorem Step.flags (h : Step env w a w') (hw : WellFormed w) :
    (w.storage.isPrizeClaimed = true → w'.storage.isPrizeClaimed = true) ∧
      ∀ p, w.storage.isRefundClaimed p = true → w'.storage.isRefundClaimed p = true := by
  cases h with
  | call _ hexec =>
    cases exec_effect hexec with
    | @roundResolved config _ hguard hc ha hp hs hstart hnow =>
      obtain ⟨bps, eliminated, events, heq⟩ := @settleRound_eq H env w config hw.nodup
      rw [heq]
      exact ⟨id, fun _ => id⟩
    | claimed => exact ⟨fun _ => rfl, fun _ => id⟩
    | @refunded player =>
      refine ⟨id, fun p hb => ?_⟩
      unfold ArenaStorage.isRefundClaimed at hb ⊢
      dsimp only
      by_cases hpp : p = player
      · subst hpp; rw [Function.update_self]; rfl
      · rw [Function.update_of_ne hpp]; exact hb
    | _ => exact ⟨id, fun _ => id⟩
  | external _ => exact ⟨id, fun _ => id⟩
  | tick _ _ => exact ⟨id, fun _ => id⟩

end Steps

/-! ## Whole runs -/

section Runs

variable {env : Env H} {outside : H} {now : ℕ} {tr : List (World H × Action H)} {w : World H}

/-- The invariants may be assumed in every state of a run. -/
theorem run_of_fresh (hrun : Run (Step env) (World.fresh outside now) tr w) :
    (WellFormed w ∧ Payouts w) ∧
      Run (fun t a u => (WellFormed t ∧ Payouts t) ∧ Step env t a u) (World.fresh outside now)
        tr w := by
  have hstep : ∀ t a u, WellFormed t ∧ Payouts t → Step env t a u → WellFormed u ∧ Payouts u :=
    fun t a u hi hs => ⟨hi.1.step hs, hi.2.step hi.1 hs⟩
  have h0 : WellFormed (World.fresh outside now) ∧ Payouts (World.fresh outside now) :=
    ⟨wellFormed_fresh outside now, payouts_fresh outside now⟩
  exact ⟨hrun.invariant (I := fun t => WellFormed t ∧ Payouts t) hstep h0,
    hrun.strengthen (I := fun t => WellFormed t ∧ Payouts t) hstep h0⟩

theorem countP_claim_le_one (hrun : Run (Step env) (World.fresh outside now) tr w) :
    tr.countP (fun e => e.2.isClaim) ≤ 1 := by
  refine (run_of_fresh hrun).2.countP_le_one (b := Action.isClaim)
    (fun t a u h hb => ?_) (fun t a u h => (h.2.flags h.1.1).1)
  obtain ⟨hno, hyes, -⟩ := h.2.of_claim hb
  exact ⟨by rw [hno]; simp, hyes⟩

theorem countP_refund_le_one (hrun : Run (Step env) (World.fresh outside now) tr w)
    (p : Address) : tr.countP (fun e => e.2.isRefundOf p) ≤ 1 := by
  refine (run_of_fresh hrun).2.countP_le_one (b := Action.isRefundOf p)
    (fun t a u h hb => ?_) (fun t a u h => (h.2.flags h.1.1).2 p)
  unfold Action.isRefundOf at hb
  split at hb
  · obtain rfl := of_decide_eq_true hb
    obtain ⟨hno, hyes, -⟩ := h.2.of_refund
    exact ⟨by rw [hno]; simp, hyes⟩
  · cases hb

theorem countP_expire_le_one (hrun : Run (Step env) (World.fresh outside now) tr w) :
    tr.countP (fun e => e.2.isExpire) ≤ 1 := by
  refine (run_of_fresh hrun).2.countP_le_one (b := Action.isExpire)
    (fun t a u h hb => ?_) (fun t a u h => h.2.unclaimable h.1.1)
  unfold Action.isExpire at hb
  split at hb
  · exact h.2.of_expire h.1.2
  · cases hb

theorem settled_of_claim {t u : World H} {a : Action H}
    (h : (WellFormed t ∧ Payouts t) ∧ Step env t a u) (ha : a.isClaim = true) :
    InState u .Settled := (h.2.of_claim ha).2.2

theorem cancelled_of_refund {t u : World H} {a : Action H}
    (h : (WellFormed t ∧ Payouts t) ∧ Step env t a u) (ha : a.isRefund = true) :
    InState u .Cancelled := by
  unfold Action.isRefund at ha
  split at ha
  · exact h.2.of_refund.2.2
  · cases ha

theorem unclaimable_of_expire {t u : World H} {a : Action H}
    (h : (WellFormed t ∧ Payouts t) ∧ Step env t a u) (ha : a.isExpire = true) :
    Unclaimable u := by
  unfold Action.isExpire at ha
  split at ha
  · exact (h.2.of_expire h.1.2).2
  · cases ha

/-- A claim pays its caller, the only active player. -/
theorem claim_pays_active {t u : World H} {auths : List Address} {p : Address} (hp : Payouts t)
    (h : Step env t (.call auths (.claim p)) u) :
    (∃ token total, u.transfers = t.transfers ++ [⟨token, env.here, p, total⟩]) ∧
      ∀ q, (∃ state, t.storage.player q = some state ∧ state.active = true) ↔ q = p := by
  cases h with
  | call _ hexec =>
    cases exec_effect hexec with
    | administered hadm => cases hadm
    | claimed hguard ha hc hpaused hs hclaimed hwin hwd htotal htr =>
      refine ⟨⟨_, _, rfl⟩, fun q => ?_⟩
      rw [← (hp.winner p hwin).2 q]
      unfold ArenaStorage.isActive ArenaStorage.loadPlayer
      cases hq : t.storage.player q with
      | none => simp
      | some state => simp

/-- In every run, for any behaviour of the token, vault and oracle contracts:
    at most one claim, one refund per player and one expiry succeed; no two of
    these kinds occur together; and a claim pays the caller, who is the only
    active player. -/
theorem payouts_once (hrun : Run (Step env) (World.fresh outside now) tr w) :
    tr.countP (fun e => e.2.isClaim) ≤ 1 ∧
      (∀ p, tr.countP (fun e => e.2.isRefundOf p) ≤ 1) ∧
      tr.countP (fun e => e.2.isExpire) ≤ 1 ∧
      ¬ ((∃ e ∈ tr, e.2.isClaim = true) ∧ ∃ e ∈ tr, e.2.isRefund = true) ∧
      ¬ ((∃ e ∈ tr, e.2.isClaim = true) ∧ ∃ e ∈ tr, e.2.isExpire = true) ∧
      ¬ ((∃ e ∈ tr, e.2.isRefund = true) ∧ ∃ e ∈ tr, e.2.isExpire = true) ∧
      ∀ auths p u, Step env w (.call auths (.claim p)) u →
        (∃ token total, u.transfers = w.transfers ++ [⟨token, env.here, p, total⟩]) ∧
        ∀ q, (∃ state, w.storage.player q = some state ∧ state.active = true) ↔ q = p := by
  obtain ⟨hinv, hrun'⟩ := run_of_fresh hrun
  refine ⟨countP_claim_le_one hrun, countP_refund_le_one hrun, countP_expire_le_one hrun,
    ?_, ?_, ?_, fun auths p u h => claim_pays_active hinv.2 h⟩
  · exact hrun'.not_both (fun t hs hs' => nomatch hs.unique hs')
      (fun t a u h ha => settled_of_claim h ha)
      (fun t a u h hs => h.2.terminal h.1.1 settled_terminal hs)
      (fun t a u h ha => cancelled_of_refund h ha)
      (fun t a u h hs => h.2.terminal h.1.1 cancelled_terminal hs)
  · exact hrun'.not_both (fun t hs hs' => nomatch hs.unique hs'.1)
      (fun t a u h ha => settled_of_claim h ha)
      (fun t a u h hs => h.2.terminal h.1.1 settled_terminal hs)
      (fun t a u h ha => unclaimable_of_expire h ha) (fun t a u h hs => h.2.unclaimable h.1.1 hs)
  · exact hrun'.not_both (fun t hs hs' => nomatch hs.unique hs'.1)
      (fun t a u h ha => cancelled_of_refund h ha)
      (fun t a u h hs => h.2.terminal h.1.1 cancelled_terminal hs)
      (fun t a u h ha => unclaimable_of_expire h ha) (fun t a u h hs => h.2.unclaimable h.1.1 hs)

/-- A game of two players: one reveals, resolves the round and claims. -/
theorem payouts_once_game : ∃ tr w,
    Run (Step (reference false)) (World.fresh VaultState.sample 0) tr w ∧
      (∃ e ∈ tr, e.2.isClaim = true) ∧ tr.countP (fun e => e.2.isClaim) ≤ 1 := by
  obtain ⟨tr, w, hrun, hclaim⟩ : ∃ tr w, Run (Step (reference false))
      (World.fresh VaultState.sample 0) tr w ∧
        ∃ e ∈ tr, e.2.isClaim = true :=
    exists_run
      (sampleGame 100 ++ [.call [⟨10⟩] .resolveRound, .call [⟨11⟩] (.claim ⟨11⟩)])
      (by decide +kernel)
  exact ⟨tr, w, hrun, hclaim, (payouts_once hrun).1⟩

end Runs

end InverseArena.Arena
