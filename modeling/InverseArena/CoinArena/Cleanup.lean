import InverseArena.CoinArena.Replay

/-!
# Cleaning up

`cleanup_arena` removes the players, the winner, the flags and the creator's
stake of a finished or cancelled arena, whether or not they have been settled.

Results:
* `Step.spends`: a payout needs an entitlement and uses it up, and only joins,
  resolutions and deposits open one.
* `countP_paid_le`: so every entitlement is paid at most once.
* `keepsEntitlements_iff`: a cleanup keeps the entitlements exactly when nothing
  is outstanding.
-/

namespace InverseArena.CoinArena

open Host KeyedMap Transition

variable {G H : Type}

/-- What the arena can owe to somebody. -/
inductive Entitlement where
  | prize (winner : Address)
  | refund (player : Address)
  | stake

/-- The state of the game, once there is a configuration. -/
def World.gameState (w : World G H) : Option GameState := w.storage.config.map ArenaConfig.state

namespace Entitlement

/-- Not settled yet. -/
def Pending : Entitlement → World G H → Prop
  | prize winner, w => w.storage.isPrizeClaimed = false ∧ w.storage.winner = some winner
  | refund player, w =>
    w.storage.isRefundClaimed player = false ∧ player ∈ w.storage.loadAllPlayers
  | stake, w => 0 < w.storage.loadCreatorStake

/-- The states of the game in which it is paid. -/
def Payable : Entitlement → World G H → Prop
  | prize _, w => w.gameState = some .Finished
  | refund _, w => w.gameState = some .Cancelled
  | stake, _ => True

/-- What `claim`, `claim_refund` and `withdraw_creator_stake` require of the
    storage. -/
def Due (e : Entitlement) (w : World G H) : Prop := e.Payable w ∧ e.Pending w

/-- The steps that pay it. -/
def isPaid : Entitlement → Action H → Bool
  | prize winner, .call _ (.claim a) => winner = a
  | refund player, .call _ (.claimRefund a) => player = a
  | stake, .call _ (.withdrawCreatorStake _) => true
  | _, _ => false

/-- The steps that can open it: the end of a round, a join, a deposit. -/
def isOpened : Entitlement → Action H → Bool
  | prize _, .call _ c => c.isResolution
  | refund player, .call _ (.join a) => player = a
  | stake, .call _ (.depositCreatorStake _ _) => true
  | _, _ => false

end Entitlement

/-- A cleanup from `t` to `u` keeps `e`: it stays due, it is paid at most once
    unless it is opened again, and not at all if it was not due. -/
structure Keeps (env : Env G H) (t u : World G H) (e : Entitlement) : Prop where
  intact : e.Due t → e.Due u
  once : ∀ tr v, Run (Step env) u tr v →
    tr.countP (fun x => e.isPaid x.2) ≤ tr.countP (fun x => e.isOpened x.2) + 1
  settled : ¬ e.Due t → ∀ tr v, Run (Step env) u tr v →
    tr.countP (fun x => e.isPaid x.2) ≤ tr.countP (fun x => e.isOpened x.2)

/-- If the last step was a cleanup, it has kept all entitlements. -/
def KeepsEntitlements (env : Env G H) : List (World G H × Action H) → World G H → Prop
  | (t, .call _ .cleanupArena) :: _, u => ∀ e, Keeps env t u e
  | _, _ => True

/-- Nothing is outstanding when the arena is cleaned up. -/
def CleansSettled (_ : List (World G H × Action H)) (t : World G H) : Action H → Prop
  | .call _ .cleanupArena => ∀ e : Entitlement, ¬ e.Due t
  | _ => True

/-! ## Payouts -/

/-- A payout needs an entitlement and uses it up, and only an opening makes one
    pending. -/
structure Spends (t u : World G H) (a : Action H) : Prop where
  pays : ∀ e : Entitlement, e.isPaid a = true → e.Due t ∧ ¬ e.Pending u
  opens : ∀ e : Entitlement, e.Pending u → e.Pending t ∨ e.isOpened a = true

/-- Nothing that an entitlement depends on differs. -/
structure SamePending (t u : World G H) : Prop where
  prizeClaimed : u.storage.prizeClaimed = t.storage.prizeClaimed
  winner : u.storage.winner = t.storage.winner
  players : u.storage.players = t.storage.players
  refundClaimed : u.storage.refundClaimed = t.storage.refundClaimed
  creatorStake : u.storage.creatorStake = t.storage.creatorStake

variable {env : Env G H} {auths : List Address} {t u w : World G H} {a : Action H} {c : Call}
  {e : Entitlement} {tr : List (World G H × Action H)}

theorem SamePending.pending (h : SamePending t u) (hp : e.Pending u) : e.Pending t := by
  cases e with
  | prize winner =>
    obtain ⟨hclaimed, hwinner⟩ := hp
    refine ⟨?_, h.winner ▸ hwinner⟩
    unfold ArenaStorage.isPrizeClaimed at hclaimed ⊢
    rwa [h.prizeClaimed] at hclaimed
  | refund player =>
    obtain ⟨hclaimed, hmem⟩ := hp
    refine ⟨?_, ?_⟩
    · unfold ArenaStorage.isRefundClaimed at hclaimed ⊢
      rwa [h.refundClaimed] at hclaimed
    · unfold ArenaStorage.loadAllPlayers at hmem ⊢
      rwa [h.players] at hmem
  | stake =>
    have hpos : 0 < u.storage.loadCreatorStake := hp
    show 0 < t.storage.loadCreatorStake
    unfold ArenaStorage.loadCreatorStake at hpos ⊢
    rwa [h.creatorStake] at hpos

/-- Steps that concern no entitlement. -/
theorem SamePending.spends (h : SamePending t u) (hpaid : ∀ e : Entitlement, e.isPaid a = false) :
    Spends t u a where
  pays e he := by
    rw [hpaid e] at he
    cases he
  opens _ hp := .inl (h.pending hp)

/-- Steps that open entitlements. -/
theorem Spends.of_opens (hpaid : ∀ e : Entitlement, e.isPaid a = false)
    (hopens : ∀ e : Entitlement, e.Pending u → e.Pending t ∨ e.isOpened a = true) :
    Spends t u a where
  pays e he := by
    rw [hpaid e] at he
    cases he
  opens := hopens

/-- The rules for abstract calls pay nothing. -/
theorem isPaid_eq_false (h : c.isTuning || c.isGlobal || c.isResolution) (e : Entitlement) :
    e.isPaid (.call auths c : Action H) = false := by
  cases c with
  | claim | claimRefund | withdrawCreatorStake => cases h
  | _ => cases e <;> rfl

theorem Effect.spends (h : Effect env auths t c u) : Spends t u (.call auths c) := by
  cases h with
  | tuned ht =>
    exact SamePending.spends ⟨rfl, rfl, rfl, rfl, rfl⟩ (isPaid_eq_false (by simp [ht]))
  | regulated hg =>
    exact SamePending.spends ⟨rfl, rfl, rfl, rfl, rfl⟩ (isPaid_eq_false (by simp [hg]))
  | cancelled _ _ hby =>
    rcases hby with ⟨rfl, -⟩ | ⟨rfl, -⟩
    · exact SamePending.spends ⟨rfl, rfl, rfl, rfl, rfl⟩ fun e => by cases e <;> rfl
    · exact SamePending.spends ⟨rfl, rfl, rfl, rfl, rfl⟩ fun e => by cases e <;> rfl
  | @joined player =>
    refine .of_opens (fun e => by cases e <;> rfl) fun e hp => ?_
    cases e with
    | refund player' =>
      obtain ⟨hclaimed, hmem⟩ := hp
      have hmem' : player' ∈ t.storage.loadAllPlayers ++ [player] := hmem
      rcases List.mem_append.mp hmem' with hold | hnew
      · exact .inl ⟨hclaimed, hold⟩
      · exact .inr (decide_eq_true (List.mem_singleton.mp hnew))
    | _ => exact .inl hp
  | resolved hres =>
    refine .of_opens (isPaid_eq_false (by simp [hres])) fun e hp => ?_
    cases e with
    | prize => exact .inr hres
    | _ => exact .inl hp
  | @claimed winner config _ _ _ _ _ _ hc _ hfin hclaimed hwin =>
    refine ⟨fun e he => ?_, fun e hp => ?_⟩
    · cases e with
      | prize winner' =>
        obtain rfl : winner' = winner := of_decide_eq_true he
        refine ⟨⟨?_, hclaimed, hwin⟩, fun hp => by cases hp.1⟩
        show t.storage.config.map ArenaConfig.state = some .Finished
        rw [hc, Option.map_some, hfin]
      | _ => cases he
    · cases e with
      | prize => cases hp.1
      | _ => exact .inl hp
  | cleaned =>
    rw [ArenaStorage.cleanupArenaData_eq]
    refine .of_opens (fun e => by cases e <;> rfl) fun e hp => ?_
    cases e with
    | prize => cases hp.2
    | refund => cases hp.2
    | stake => cases hp
  | @refunded player config _ _ hc hcancelled hno hmem =>
    refine ⟨fun e he => ?_, fun e hp => ?_⟩
    · cases e with
      | refund player' =>
        obtain rfl : player' = player := of_decide_eq_true he
        refine ⟨⟨?_, hno, hmem⟩, fun hp => ?_⟩
        · show t.storage.config.map ArenaConfig.state = some .Cancelled
          rw [hc, Option.map_some, hcancelled]
        · have hpaid := hp.1
          rw [ArenaStorage.isRefundClaimed_update, Function.update_self] at hpaid
          cases hpaid
      | _ => cases he
    · cases e with
      | refund player' =>
        obtain ⟨hclaimed, hmem'⟩ := hp
        refine .inl ⟨?_, hmem'⟩
        rw [ArenaStorage.isRefundClaimed_update] at hclaimed
        by_cases hp : player' = player
        · rwa [hp]
        · rwa [Function.update_of_ne hp] at hclaimed
      | _ => exact .inl hp
  | staked =>
    refine .of_opens (fun e => by cases e <;> rfl) fun e hp => ?_
    cases e with
    | stake => exact .inr rfl
    | _ => exact .inl hp
  | unstaked _ hpos =>
    refine ⟨fun e he => ?_, fun e hp => ?_⟩
    · cases e with
      | stake => exact ⟨⟨trivial, hpos⟩, lt_irrefl 0⟩
      | _ => cases he
    · cases e with
      | stake => exact absurd hp (lt_irrefl 0)
      | _ => exact .inl hp
  | _ => exact SamePending.spends ⟨rfl, rfl, rfl, rfl, rfl⟩ fun e => by cases e <;> rfl

theorem Step.spends (h : Step env t a u) : Spends t u a := by
  cases h with
  | call _ hexec => exact (exec_effect hexec).spends
  | _ => exact SamePending.spends ⟨rfl, rfl, rfl, rfl, rfl⟩ fun e => by cases e <;> rfl

/-- From any state: an entitlement is paid at most once, unless it is opened again. -/
theorem countP_paid_le {n : ℕ} (hrun : Run (Step env) u tr w) (h0 : e.Pending u → 1 ≤ n) :
    tr.countP (fun x => e.isPaid x.2) ≤ tr.countP (fun x => e.isOpened x.2) + n :=
  (hrun.countP_spend (fun _ _ _ hs he => ⟨(hs.spends.pays e he).1.2, (hs.spends.pays e he).2⟩)
    (fun _ _ _ hs => hs.spends.opens e) h0).1

/-! ## Cleanups -/

theorem Step.not_pending_of_cleanup (h : Step env t (.call auths .cleanupArena) u)
    (e : Entitlement) : ¬ e.Pending u := by
  intro hp
  cases h with
  | call _ hexec =>
    cases exec_effect hexec with
    | tuned ht => cases ht
    | regulated hg => cases hg
    | resolved hres => cases hres
    | cancelled _ _ hby =>
      rcases hby with ⟨hby, -⟩ | ⟨hby, -⟩
      · cases hby
      · cases hby
    | cleaned =>
      rw [ArenaStorage.cleanupArenaData_eq] at hp
      cases e with
      | prize => cases hp.2
      | refund => cases hp.2
      | stake => cases hp

/-- A cleanup keeps the entitlements exactly when none is outstanding. -/
theorem Step.keeps_iff (h : Step env t (.call auths .cleanupArena) u) :
    (∀ e, Keeps env t u e) ↔ ∀ e : Entitlement, ¬ e.Due t := by
  constructor
  · exact fun hkeeps e hdue => h.not_pending_of_cleanup e ((hkeeps e).intact hdue).2
  · exact fun hsettled e => {
      intact := fun hdue => absurd hdue (hsettled e)
      once := fun tr v hrun => countP_paid_le hrun fun _ => le_rfl
      settled := fun _ tr v hrun =>
        countP_paid_le (n := 0) hrun fun hp => absurd hp (h.not_pending_of_cleanup e) }

/-- In every run of any calls by any callers: each cleanup leaves every
    outstanding prize, refund and stake due, to be paid at most once, and nothing
    settled is paid again, in exactly the runs that clean up only when nothing is
    outstanding. -/
theorem keepsEntitlements_iff {globals : G} {outside : H} {now sequence : ℕ}
    (hrun : Run (Step env) (.fresh globals outside now sequence) tr w) :
    AlongRun (KeepsEntitlements env) tr w ↔ EachStep CleansSettled tr :=
  hrun.alongRun_iff_of_each trivial fun _ _ a _ _ _ hs => by
    cases a with
    | call auths c =>
      cases c with
      | cleanupArena => exact hs.keeps_iff
      | _ => exact Iff.rfl
    | _ => exact Iff.rfl

/-- The arena is cleaned up once player 11 has claimed the prize. -/
theorem keepsEntitlements_iff_sample : ∃ tr w, Run (Step sampleEnv) sampleWorld tr w ∧
    w.storage.players = none ∧ w.gameState = some .Finished ∧
    (AlongRun (KeepsEntitlements sampleEnv) tr w ↔ EachStep CleansSettled tr) := by
  obtain ⟨tr, w, hrun, hplayers, hstate⟩ : ∃ tr w, Run (Step sampleEnv) sampleWorld tr w ∧
      w.storage.players = none ∧ w.gameState = some .Finished :=
    exists_run (sampleJoins 2 ++ sampleGame ++
      [.call [⟨11⟩] (.claim ⟨11⟩), .call [⟨10⟩] .cleanupArena]) (by decide +kernel)
  exact ⟨tr, w, hrun, hplayers, hstate, keepsEntitlements_iff hrun⟩

/-- The arena is cleaned up before player 11 has claimed the prize. -/
theorem not_keepsEntitlements : ¬ ∀ tr w, Run (Step sampleEnv) sampleWorld tr w →
    AlongRun (KeepsEntitlements sampleEnv) tr w := by
  intro hall
  obtain ⟨tr, t, u, hrun, hstep, hdue, hnone⟩ : ∃ tr t u, Run (Step sampleEnv) sampleWorld tr t ∧
      Step sampleEnv t (.call [⟨10⟩] .cleanupArena) u ∧
        (t.gameState = some .Finished ∧ t.storage.isPrizeClaimed = false ∧
          t.storage.winner = some ⟨11⟩) ∧ u.storage.winner = none :=
    exists_run_call (sampleJoins 2 ++ sampleGame) [⟨10⟩] .cleanupArena (by decide +kernel)
  have hkept : Entitlement.Due (.prize ⟨11⟩) u :=
    ((hall _ _ (hrun.snoc hstep)).last (.prize ⟨11⟩)).intact hdue
  rw [hkept.2.2] at hnone
  cases hnone

end InverseArena.CoinArena
