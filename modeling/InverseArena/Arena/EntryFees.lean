import InverseArena.Arena.Payouts

/-!
# Members and their entry fees

`join_arena` (`contract/arena/src/lib.rs`, lines 260-309) takes the entry fee
before the vault accepts the deposit; if the vault rejects it, the host rolls
back the call and with it the payment. The player list, the players' records
and the cached count are three storage entries (`storage.rs`, lines 101-144).

Results:
* `feesPaid_of_run`: what an address has paid to the arena is one entry fee if
  it is a member, and nothing otherwise.
* `membership`: the three entries agree, and members are those who have paid.
-/

namespace InverseArena.Arena

open Transition

variable {H : Type}

/-- The transfers from `a` to the arena. -/
def paidBy (env : Env H) (w : World H) (a : Address) : List Transfer :=
  w.transfers.filter fun x => x.sender = a ∧ x.recipient = env.here

/-- Every member has paid one entry fee to the arena, and nobody else has paid
    anything. -/
structure FeesPaid (env : Env H) (w : World H) : Prop where
  unopened : w.storage.config = none → w.transfers = []
  paid : ∀ config, w.storage.config = some config → ∀ a, paidBy env w a =
    if a ∈ w.storage.loadAllPlayers then [⟨config.stakeToken, a, env.here, config.entryFee⟩]
    else []

theorem feesPaid_fresh (env : Env H) (outside : H) (now : ℕ) :
    FeesPaid env (World.fresh outside now) where
  unopened := fun _ => rfl
  paid := fun config hc => by cases hc

section Steps

variable {env : Env H} {auths : List Address} {w w' : World H} {c : Call}

theorem paidBy_append {l : List Transfer} (h : w'.transfers = w.transfers ++ l) (a : Address) :
    paidBy env w' a =
      paidBy env w a ++ l.filter fun x => x.sender = a ∧ x.recipient = env.here := by
  unfold paidBy
  rw [h, List.filter_append]

/-- A change that keeps the players, the token and the fee, and sends tokens
    only to others. -/
theorem FeesPaid.frame (h : FeesPaid env w) {config config' : ArenaConfig} {l : List Transfer}
    (htransfers : w'.transfers = w.transfers ++ l) (hl : ∀ x ∈ l, x.recipient ≠ env.here)
    (hplayers : w'.storage.players = w.storage.players)
    (hc : w.storage.config = some config) (hc' : w'.storage.config = some config')
    (htoken : config'.stakeToken = config.stakeToken) (hfee : config'.entryFee = config.entryFee) :
    FeesPaid env w' where
  unopened := fun hnone => by rw [hc'] at hnone; cases hnone
  paid := fun config'' hc'' a => by
    obtain rfl := Option.some.inj (hc'.symm.trans hc'')
    have hnone : (l.filter fun x => x.sender = a ∧ x.recipient = env.here) = [] := by
      rw [List.filter_eq_nil_iff]
      intro x hx hpaid
      exact hl x hx (of_decide_eq_true hpaid).2
    have hall : w'.storage.loadAllPlayers = w.storage.loadAllPlayers := by
      unfold ArenaStorage.loadAllPlayers
      rw [hplayers]
    rw [paidBy_append htransfers, hnone, List.append_nil, htoken, hfee, hall]
    exact h.paid config hc a

theorem FeesPaid.effect (h : FeesPaid env w) (hw : WellFormed w) (hauth : Authorized env w)
    (hauths : ∀ a ∈ auths, env.mayAuthorize a) (hhere : ¬ env.mayAuthorize env.here)
    (he : Effect env auths w c w') : FeesPaid env w' := by
  have hother : ∀ p, env.mayAuthorize p → p ≠ env.here := by
    rintro p hp rfl
    exact hhere hp
  have hno : ∀ x ∈ ([] : List Transfer), x.recipient ≠ env.here := by
    intro x hx
    cases hx
  cases he with
  | initialized ha hnone hfee hlim hbal =>
    have hnothing := h.unopened hnone
    have hempty : w.storage.loadAllPlayers = [] := by
      rw [hw.blank hnone]
      rfl
    refine ⟨fun hn => ?_, fun config hc a => ?_⟩
    · cases hn
    · unfold paidBy
      show w.transfers.filter _ = if a ∈ w.storage.loadAllPlayers then _ else _
      rw [hnothing, hempty]
      rfl
  | administered hadm hc hc' hlim =>
    exact h.frame (List.append_nil _).symm hno rfl hc hc' rfl rfl
  | @joined player config _ _ hguard ha hc hp hs hne hban hnone hmax htr hdep =>
    have hnew : player ∉ w.storage.loadAllPlayers := by
      rw [← hw.known, hnone]
      simp
    refine ⟨fun hn => ?_, fun config' hc' a => ?_⟩
    · cases hn
    · obtain rfl := Option.some.inj hc'
      rw [paidBy_append rfl, h.paid config hc a, List.filter_singleton]
      show _ = if a ∈ w.storage.loadAllPlayers ++ [player] then _ else _
      by_cases hap : player = a
      · subst hap
        simp [hnew]
      · simp [hap, Ne.symm hap]
  | committed ha hc hp hs hnow hpl hpa =>
    exact h.frame (List.append_nil _).symm hno rfl hc hc rfl rfl
  | revealed ha hc hp hpl hpa hchoice hnow hopen =>
    exact h.frame (List.append_nil _).symm hno rfl hc hc rfl rfl
  | roundStarted hc ha hp hs hmin =>
    exact h.frame (List.append_nil _).symm hno rfl hc rfl rfl rfl
  | @roundResolved config _ hguard hc ha hp hs hstart hnow =>
    obtain ⟨bps, eliminated, events, heq⟩ := @settleRound_eq H env w config hw.nodup
    rw [heq]
    exact h.frame (List.append_nil _).symm hno rfl hc rfl rfl rfl
  | cancelled hguard hc ha hp hs hwd =>
    exact h.frame (List.append_nil _).symm hno rfl hc rfl rfl rfl
  | expired hguard hc hp hs hnow hwd hpay =>
    refine h.frame rfl (fun x hx => ?_) rfl hc rfl rfl rfl
    obtain ⟨p, hp, rfl⟩ := List.mem_map.mp hx
    exact hother p (hauth.players p (List.mem_filter.mp hp).1)
  | claimed hguard ha hc hp hs hclaimed hwin hwd htotal htr =>
    refine h.frame rfl (fun x hx => ?_) rfl hc rfl rfl rfl
    rw [List.mem_singleton.mp hx]
    exact hother _ (hauths _ ha)
  | forceCancelled hguard hc ha hs =>
    exact h.frame (List.append_nil _).symm hno rfl hc rfl rfl rfl
  | forceCancelledAgain hguard hc ha hs =>
    exact h.frame (List.append_nil _).symm hno rfl hc hc rfl rfl
  | refunded ha hc hs href hpl htr =>
    refine h.frame rfl (fun x hx => ?_) rfl hc hc rfl rfl
    rw [List.mem_singleton.mp hx]
    exact hother _ (hauths _ ha)

theorem feesPaid_of_run {outside : H} {now : ℕ} {tr : List (World H × Action H)}
    (hhere : ¬ env.mayAuthorize env.here)
    (hrun : Run (Step env) (World.fresh outside now) tr w) : FeesPaid env w := by
  refine hrun.history (I := fun _ w => FeesPaid env w) (feesPaid_fresh env outside now)
    fun _ _ _ _ hr h hs => ?_
  cases hs with
  | call hauths hexec =>
    exact h.effect (wellFormed_of_run hr) (authorized_of_run hr) hauths hhere (exec_effect hexec)
  | external _ => exact ⟨h.unopened, h.paid⟩
  | tick _ _ => exact ⟨h.unopened, h.paid⟩

end Steps

/-- In every state of every run of an arena that does not authorize calls to
    itself: the player list has no duplicates, the cached count is its length,
    which is at most `MAX_PLAYERS_ALLOWED`, a record is stored exactly for its
    members, and what an address has paid to the arena is one entry fee if it is
    a member, and nothing otherwise. -/
theorem membership {env : Env H} {outside : H} {now : ℕ} {tr : List (World H × Action H)}
    {w : World H} (hhere : ¬ env.mayAuthorize env.here)
    (hrun : Run (Step env) (World.fresh outside now) tr w) :
    w.storage.loadAllPlayers.Nodup ∧ w.storage.loadAllPlayers.length ≤ maxPlayersAllowed ∧
      (∀ a, (w.storage.loadPlayer a).isSome = true ↔ a ∈ w.storage.loadAllPlayers) ∧
      (w.storage.config = none → w.storage.loadAllPlayers = [] ∧ w.transfers = []) ∧
      ∀ config, w.storage.config = some config →
        config.playerCount = w.storage.loadAllPlayers.length ∧
        ∀ a, paidBy env w a = if a ∈ w.storage.loadAllPlayers then
            [⟨config.stakeToken, a, env.here, config.entryFee⟩]
          else [] := by
  have hw := wellFormed_of_run hrun
  have hpaid := feesPaid_of_run hhere hrun
  refine ⟨hw.nodup, hw.capped, hw.known, fun hnone => ⟨?_, hpaid.unopened hnone⟩,
    fun config hc => ⟨hw.count config hc, hpaid.paid config hc⟩⟩
  rw [hw.blank hnone]
  rfl

/-- In the sample game, in which the prize is paid out too, member 12 has paid
    its entry fee once, and the admin nothing. -/
theorem membership_game : ∃ tr w,
    Run (Step (reference false)) (World.fresh VaultState.sample 0) tr w ∧
      paidBy (reference false) w ⟨12⟩ = [⟨⟨1⟩, ⟨12⟩, ⟨0⟩, 100⟩] ∧
      paidBy (reference false) w ⟨10⟩ = [] := by
  obtain ⟨tr, w, hrun, hplayers, config, hc, htoken, hfee⟩ : ∃ tr w,
      Run (Step (reference false)) (World.fresh VaultState.sample 0) tr w ∧
        w.storage.loadAllPlayers = [⟨11⟩, ⟨12⟩] ∧
        ∃ config ∈ w.storage.config, config.stakeToken = ⟨1⟩ ∧ config.entryFee = 100 :=
    exists_run (sampleGame 100 ++ [.call [⟨10⟩] .resolveRound, .call [⟨11⟩] (.claim ⟨11⟩)])
      (by decide +kernel)
  obtain ⟨-, -, -, -, hconfig⟩ := membership (by decide) hrun
  have hpaid := (hconfig config hc).2
  rw [hplayers, htoken, hfee] at hpaid
  exact ⟨tr, w, hrun, hpaid ⟨12⟩, hpaid ⟨10⟩⟩

end InverseArena.Arena
