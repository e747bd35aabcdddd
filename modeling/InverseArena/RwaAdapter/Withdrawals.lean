import InverseArena.RwaAdapter.Quotes

/-!
# Deposits after a withdrawal

`withdraw_all` sets the `withdrawn` flag of a position and refuses flagged ones,
`balance_of` counts them as zero, and `deposit` adds to the principal without a
look at the flag (`contract/rwa-adapter/src/lib.rs`, lines 44-46, 66-69 and
126-127).

Results:
* `withdrawable_iff`: which positions can be withdrawn.
* `deposits_withdrawable_iff`: without overflow every deposit stays
  withdrawable all along exactly the runs in which nobody deposits again after
  a withdrawal.
* `not_deposits_withdrawable`: a second deposit that is lost.
-/

namespace InverseArena.RwaAdapter

open MachineInt Host KeyedMap Transition

/-- `user` has at least the principal, and can withdraw at least as much once
    the adapter has the tokens. -/
structure Withdrawable (here : Address) (w : AdapterWorld) (user : Address) : Prop where
  worth : principalOf w.state.storage user ≤ balanceOf w.now user w.state
  paid : ∀ {auths : List Address} {tokens : Tokens}, user ∈ auths →
    (∀ config ∈ w.state.storage.config,
      balanceOf w.now user w.state ≤ tokens.balance config.stakeToken here) →
    ∃ paid h', withdrawAll here w.now auths user { w.state with tokens := tokens } =
      .ok (paid, h') ∧ principalOf w.state.storage user ≤ paid

/-- Whoever has a principal can withdraw it. -/
def DepositsWithdrawable (here : Address) (w : AdapterWorld) : Prop :=
  ∀ user, 0 < principalOf w.state.storage user → Withdrawable here w user

/-- A deposit after which the base yield of the principal is still an `i128`. -/
def NoOverflow (w : AdapterWorld) : AdapterAction → Prop
  | .deposit _ sender amount =>
    (principalOf w.state.storage sender + amount) * yieldBpsPerYear ≤ i128Max
  | _ => True

instance (w : AdapterWorld) : (a : AdapterAction) → Decidable (NoOverflow w a)
  | .deposit _ _ _ => inferInstanceAs (Decidable (_ ≤ _))
  | .initializeAdapter _ _ _ | .withdrawAll _ _ | .proposeAdmin _ _ | .acceptAdmin _
  | .moveTokens _ | .tick _ => isTrue trivial

/-- A deposit to a position from which nothing has been withdrawn. -/
def ToOpenPosition (w : AdapterWorld) : AdapterAction → Prop
  | .deposit _ sender _ => withdrawnOf w.state.storage sender = false
  | _ => True

section Steps

variable {here user : Address} {tokens : Tokens} {now : ℕ} {w w' : AdapterWorld}
  {a : AdapterAction} {tr : List (AdapterWorld × AdapterAction)}

theorem toOpenPosition_of_not_entry (h : a.isEntry = false) : ToOpenPosition w a := by
  cases a with
  | deposit | withdrawAll => cases h
  | _ => trivial

/-- Exactly the positions without the flag can be withdrawn. -/
theorem withdrawable_iff (hi : BooksInv w) (hpos : 0 < principalOf w.state.storage user)
    (hfit : principalOf w.state.storage user * 500 ≤ i128Max) :
    Withdrawable here w user ↔ withdrawnOf w.state.storage user = false := by
  obtain ⟨config, hc⟩ : ∃ config, w.state.storage.config = some config := by
    by_contra hnone
    have hz := hi.unused (Option.eq_none_iff_forall_ne_some.mpr fun c hc => hnone ⟨c, hc⟩)
    rw [principalOf_of_none hz] at hpos
    exact lt_irrefl 0 hpos
  have hsome : w.state.storage.config.isSome = true := by rw [hc]; rfl
  constructor
  · intro hw
    by_contra hflag
    have hle := hw.worth
    rw [balanceOf_eq, if_neg fun h => hflag h.2] at hle
    omega
  · intro hflag
    have hbal : balanceOf w.now user w.state = quote (principalOf w.state.storage user) w.now := by
      rw [balanceOf_eq, if_pos ⟨hsome, hflag⟩]
    have hle : principalOf w.state.storage user ≤
        quote (principalOf w.state.storage user) w.now := by
      rw [quote_of_nonneg hpos.le hfit]
      have hyield := (accrued_bounds
        (Int.ediv_nonneg hpos.le (by norm_num : (0 : ℤ) ≤ 20)) w.now).1
      omega
    refine ⟨hbal ▸ hle, fun {auths tokens} hauth hfunds => ?_⟩
    have hf := hfunds config hc
    rw [hbal] at hf
    obtain ⟨h', hw⟩ := exists_withdrawAll (h := ⟨w.state.storage, tokens⟩) hc hflag hpos hfit
      hauth hf
    exact ⟨_, h', hw, hle⟩

/-- Principals whose base yield can be computed. -/
def Modest (w : AdapterWorld) : Prop :=
  ∀ user, 0 ≤ principalOf w.state.storage user ∧
    principalOf w.state.storage user * 500 ≤ i128Max

theorem Modest.wrap_eq (hm : Modest w) {auths : List Address} {sender : Address} {amount : ℤ}
    (hpos : 0 < amount) (hno : NoOverflow w (.deposit auths sender amount)) :
    wrapI128 (principalOf w.state.storage sender + amount) =
      principalOf w.state.storage sender + amount := by
  have hfit : (principalOf w.state.storage sender + amount) * 500 ≤ i128Max := hno
  have h0 := (hm sender).1
  exact wrapI128_of_mem (by unfold i128Min; omega) (by unfold i128Max at *; omega)

theorem Modest.step (hm : Modest w) (hno : NoOverflow w a) (hs : AdapterStep here w a w') :
    Modest w' := by
  cases hs.effect with
  | @deposited auths sender amount config hpos _ _ hp =>
    have hfit : (principalOf w.state.storage sender + amount) * 500 ≤ i128Max := hno
    have h0 := (hm sender).1
    intro user
    rw [hp]
    by_cases hu : user = sender
    · subst hu
      rw [Function.update_self, hm.wrap_eq hpos hno]
      exact ⟨by omega, hfit⟩
    · rw [Function.update_of_ne hu]; exact hm user
  | @withdrawn auths sender config _ _ _ hp =>
    intro user
    rw [hp]
    by_cases hu : user = sender
    · subst hu
      rw [Function.update_self]
      unfold i128Max
      norm_num
    · rw [Function.update_of_ne hu]; exact hm user
  | initialized _ _ hp => unfold Modest; rw [principalOf_congr hp]; exact hm
  | kept _ _ hp => unfold Modest; rw [principalOf_congr hp]; exact hm

theorem modest_fresh : Modest (.fresh tokens now) := by
  intro user
  rw [principalOf_of_none rfl]
  unfold i128Max
  norm_num

/-- A step keeps the principals withdrawable exactly if its deposit goes to an
    open position. -/
theorem BookEffect.open_iff (heff : BookEffect w w' a) (hm : Modest w) (hno : NoOverflow w a)
    (hold : ∀ user, 0 < principalOf w.state.storage user →
      withdrawnOf w.state.storage user = false) :
    (∀ user, 0 < principalOf w'.state.storage user → withdrawnOf w'.state.storage user = false) ↔
      ToOpenPosition w a := by
  cases heff with
  | @deposited auths sender amount config hpos _ _ hp hf =>
    have h0 := (hm sender).1
    rw [hp, hf, hm.wrap_eq hpos hno]
    constructor
    · intro h
      exact h sender (by rw [Function.update_self]; omega)
    · intro hopen user huser
      by_cases hu : user = sender
      · subst hu; exact hopen
      · rw [Function.update_of_ne hu] at huser; exact hold user huser
  | @withdrawn auths sender config _ _ _ hp hf =>
    refine iff_of_true (fun user => ?_) trivial
    rw [hp, hf]
    by_cases hu : user = sender
    · subst hu; rw [Function.update_self]; exact fun h => absurd h (lt_irrefl 0)
    · rw [Function.update_of_ne hu, Function.update_of_ne hu]; exact hold user
  | initialized _ _ hp =>
    rw [principalOf_congr hp, withdrawnOf_congr hp]
    exact iff_of_true hold trivial
  | kept ha _ hp =>
    rw [principalOf_congr hp, withdrawnOf_congr hp]
    exact iff_of_true hold (toOpenPosition_of_not_entry ha)

theorem depositsWithdrawable_iff (hi : BooksInv w) (hm : Modest w) :
    DepositsWithdrawable here w ↔
      ∀ user, 0 < principalOf w.state.storage user → withdrawnOf w.state.storage user = false :=
  forall_congr' fun user => forall_congr' fun hpos => withdrawable_iff hi hpos (hm user).2

/-- In the runs without overflow, every user with a principal can withdraw at
    least that in every state, exactly if all deposits go to positions from which
    nothing has been withdrawn. -/
theorem deposits_withdrawable_iff (hrun : Run (AdapterStep here) (.fresh tokens now) tr w)
    (hno : ∀ e ∈ tr, NoOverflow e.1 e.2) :
    AlongRun (fun _ w => DepositsWithdrawable here w) tr w ↔
      EachStep (fun _ w a => ToOpenPosition w a) tr := by
  refine (hrun.restrict hno).alongRun_iff ?_ ?_
  · refine (depositsWithdrawable_iff (booksInv_fresh tokens now) modest_fresh).mpr ?_
    exact fun user _ => rfl
  · intro tr t a u hr hold hs
    have hi : BooksInv t := hr.invariant (fun _ _ _ h hs => h.step hs.1) (booksInv_fresh tokens now)
    have hm : Modest t := hr.invariant (fun _ _ _ h hs => h.step hs.2 hs.1) modest_fresh
    rw [depositsWithdrawable_iff (hi.step hs.1) (hm.step hs.2 hs.1)]
    exact hs.1.effect.open_iff hm hs.2 ((depositsWithdrawable_iff hi hm).mp hold)

end Steps

/-- A first deposit can be withdrawn. -/
theorem deposits_withdrawable_once : ∃ tr w,
    Run (AdapterStep ⟨0⟩) (.fresh (endowed ⟨0⟩) 0) tr w ∧
      principalOf w.state.storage ⟨3⟩ = 100 ∧
      AlongRun (fun _ w => DepositsWithdrawable ⟨0⟩ w) tr w := by
  have hrun : Run (AdapterStep ⟨0⟩) (.fresh (endowed ⟨0⟩) 0)
      [(_, .deposit [⟨3⟩] ⟨3⟩ 100), (_, .initializeAdapter [⟨1⟩] ⟨1⟩ ⟨2⟩)] _ :=
    .snoc (.snoc .nil (.initializeAdapter rfl)) (.deposit (by decide) rfl)
  exact ⟨_, _, hrun, rfl,
    (deposits_withdrawable_iff hrun (by decide +kernel)).mpr ⟨rfl, trivial, trivial⟩⟩

/-- A user deposits 100, withdraws, and deposits 100 again: the second deposit is
    quoted at zero and cannot be withdrawn. -/
theorem not_deposits_withdrawable : ∃ tr w,
    Run (AdapterStep ⟨0⟩) (.fresh (endowed ⟨0⟩) 0) tr w ∧ (∀ e ∈ tr, NoOverflow e.1 e.2) ∧
      principalOf w.state.storage ⟨3⟩ = 100 ∧ balanceOf w.now ⟨3⟩ w.state = 0 ∧
      Fallible.failure (withdrawAll ⟨0⟩ w.now [⟨3⟩] ⟨3⟩ w.state) =
        some (.error .AlreadyWithdrawn) := by
  have hrun : Run (AdapterStep ⟨0⟩) (.fresh (endowed ⟨0⟩) 0)
      [(_, .deposit [⟨3⟩] ⟨3⟩ 100), (_, .withdrawAll [⟨3⟩] ⟨3⟩), (_, .deposit [⟨3⟩] ⟨3⟩ 100),
        (_, .initializeAdapter [⟨1⟩] ⟨1⟩ ⟨2⟩)] _ :=
    .snoc (.snoc (.snoc (.snoc .nil (.initializeAdapter rfl)) (.deposit (by decide) rfl))
      (.withdrawAll (by decide) rfl)) (.deposit (by decide) rfl)
  exact ⟨_, _, hrun, by decide +kernel, rfl, rfl, rfl⟩

end InverseArena.RwaAdapter
