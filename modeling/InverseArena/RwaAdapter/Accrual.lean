import InverseArena.RwaAdapter.Quotes
import Mathlib.Data.Rat.Cast.Order
import Mathlib.Tactic.Linarith
import Mathlib.Tactic.Qify

/-!
# When yield starts to accrue

Yield accrues for the time from timestamp zero,
`env.ledger().timestamp().saturating_sub(0u64)`, whenever the deposit was made
(`contract/rwa-adapter/src/lib.rs`, lines 76 and 133): `deposit` stores no
timestamp. The test `balance_of_accrues_over_time` starts its clock at zero.

Results:
* `Accrual.worth`: how far a principal is from its deposits with their interest.
* `accrues_iff`: as long as no yield overflows, balances are the deposits with
  their interest all along exactly the runs in which no deposit is credited a
  whole unit for the time before it.
* `not_accrues`: a deposit in 2025 is at once worth more than three times its amount.
-/

namespace InverseArena.RwaAdapter

open MachineInt Host KeyedMap Transition

/-! ## Deposits with their interest -/

/-- The deposits of `user` in the steps `tr`, newest first: amount and timestamp. -/
def depositsOf (user : Address) (tr : List (AdapterWorld × AdapterAction)) : List (ℤ × ℕ) :=
  tr.filterMap fun e =>
    match e.2 with
    | .deposit _ sender amount => if sender = user then some (amount, e.1.now) else none
    | _ => none

/-- A deposit with 5% simple interest a year until `time`. -/
def worthAt (time : ℕ) (d : ℤ × ℕ) : ℚ :=
  d.1 + d.1 * yieldBpsPerYear / 10000 * ((time - d.2) / secondsPerYear)

/-- What rounding may change about it: a unit in all, and a unit of the yearly
    interest. -/
def roundingAt (time : ℕ) (d : ℤ × ℕ) : ℚ := 1 + (time - d.2) / secondsPerYear

/-- The sum of the amounts. -/
def amounts (ds : List (ℤ × ℕ)) : ℤ := (ds.map (·.1)).sum

/-- The sum of the timestamps. -/
def stamps (ds : List (ℤ × ℕ)) : ℤ := (ds.map fun d => (d.2 : ℤ)).sum

/-- The sum of the amounts times their timestamps. -/
def weighted (ds : List (ℤ × ℕ)) : ℤ := (ds.map fun d => d.1 * (d.2 : ℤ)).sum

theorem sum_worthAt (time : ℕ) (ds : List (ℤ × ℕ)) :
    (ds.map (worthAt time)).sum =
      amounts ds + (amounts ds * time - weighted ds : ℚ) / (20 * secondsPerYear : ℤ) := by
  induction ds with
  | nil => simp [amounts, weighted]
  | cons d ds ih =>
    have ha : amounts (d :: ds) = d.1 + amounts ds := List.sum_cons
    have hw : weighted (d :: ds) = d.1 * d.2 + weighted ds := List.sum_cons
    rw [List.map_cons, List.sum_cons, ih, ha, hw]
    unfold worthAt yieldBpsPerYear secondsPerYear
    push_cast
    ring

theorem sum_roundingAt (time : ℕ) (ds : List (ℤ × ℕ)) :
    (ds.map (roundingAt time)).sum =
      ds.length + (ds.length * time - stamps ds : ℚ) / secondsPerYear := by
  induction ds with
  | nil => simp [stamps]
  | cons d ds ih =>
    have hs : stamps (d :: ds) = d.2 + stamps ds := List.sum_cons
    rw [List.map_cons, List.sum_cons, ih, hs, List.length_cons]
    unfold roundingAt secondsPerYear
    push_cast
    ring

/-- What the deposits of a position say about its principal at time `now`. The
    yield accrues on the whole twenties of the principal; `credited` bounds the
    yield for the time before the deposits, `lost` what the rest does not earn. -/
structure Accrual (ds : List (ℤ × ℕ)) (principal : ℤ) (now : ℕ) : Prop where
  sum : principal = amounts ds
  past : stamps ds ≤ ds.length * now
  credited : weighted ds ≤ principal % 20 * now + 20 * secondsPerYear * ds.length
  lost : principal % 20 * now ≤ weighted ds + 20 * (ds.length * now - stamps ds)

section Accruals

variable {ds : List (ℤ × ℕ)} {principal amount : ℤ} {now time : ℕ}

theorem Accrual.nil (now : ℕ) : Accrual [] 0 now := by
  constructor <;> simp [amounts, stamps, weighted]

/-- Time passes. -/
theorem Accrual.later (h : Accrual ds principal now) (hle : now ≤ time) :
    Accrual ds principal time := by
  obtain ⟨sum, past, credited, lost⟩ := h
  obtain ⟨d, rfl⟩ := Nat.exists_eq_add_of_le hle
  have hr : 0 ≤ principal % 20 := by omega
  have hlen : principal % 20 * d ≤ 20 * (ds.length * d) := by
    rcases ds with _ | ⟨e, ds⟩
    · rw [sum]; simp [amounts]
    · have hrest : principal % 20 ≤ 20 * (e :: ds).length := by
        simp only [List.length_cons]; push_cast; omega
      calc principal % 20 * d ≤ 20 * (e :: ds).length * d := by gcongr
        _ = 20 * ((e :: ds).length * d) := by ring
  have hrd : 0 ≤ principal % 20 * d := mul_nonneg hr (by positivity)
  have hnd : (0 : ℤ) ≤ ds.length * d := by positivity
  constructor
  · exact sum
  · push_cast; rw [mul_add]; omega
  · push_cast; rw [mul_add]; omega
  · push_cast; rw [mul_add, mul_add]; omega

/-- A deposit that is credited no whole unit for the time before it. -/
theorem Accrual.deposit (h : Accrual ds principal now) (h0 : 0 < amount)
    (hwhole : (principal + amount) / 20 * now / secondsPerYear =
      principal / 20 * now / secondsPerYear) :
    Accrual ((amount, now) :: ds) (principal + amount) now := by
  obtain ⟨sum, past, credited, lost⟩ := h
  have ha : amounts ((amount, now) :: ds) = amount + amounts ds := List.sum_cons
  have hs : stamps ((amount, now) :: ds) = now + stamps ds := List.sum_cons
  have hw : weighted ((amount, now) :: ds) = amount * now + weighted ds := List.sum_cons
  have hold : principal * now = 20 * (principal / 20 * now) + principal % 20 * now := by
    conv_lhs => rw [← Int.mul_ediv_add_emod principal 20]
    ring
  have hnew : (principal + amount) * now =
      20 * ((principal + amount) / 20 * now) + (principal + amount) % 20 * now := by
    conv_lhs => rw [← Int.mul_ediv_add_emod (principal + amount) 20]
    ring
  have hmono : principal / 20 * now ≤ (principal + amount) / 20 * now := by
    gcongr
    omega
  rw [add_mul] at hnew
  constructor
  · rw [ha, sum, add_comm]
  · rw [hs, List.length_cons]; push_cast; rw [add_mul]; omega
  · rw [hw, List.length_cons]
    unfold secondsPerYear at hwhole credited ⊢
    push_cast
    omega
  · rw [hw, hs, List.length_cons]; push_cast; rw [add_mul]; omega

/-- The principal and its yield since timestamp zero are the deposits with their
    interest, up to rounding. -/
theorem Accrual.worth (h : Accrual ds principal time) :
    |((principal + principal / 20 * time / secondsPerYear : ℤ) : ℚ) - (ds.map (worthAt time)).sum|
      ≤ (ds.map (roundingAt time)).sum := by
  obtain ⟨sum, past, credited, lost⟩ := h
  have hsplit : amounts ds * time = 20 * (principal / 20 * time) + principal % 20 * time := by
    conv_lhs => rw [← sum, ← Int.mul_ediv_add_emod principal 20]
    ring
  have hr : 0 ≤ principal % 20 * time := mul_nonneg (by omega) (by positivity)
  have hyield : 20 * secondsPerYear * (principal / 20 * time / secondsPerYear)
      - amounts ds * time + weighted ds ≤
        20 * secondsPerYear * ds.length + 20 * (ds.length * time - stamps ds) := by
    unfold secondsPerYear at credited ⊢
    omega
  have hloss : -(20 * secondsPerYear * ds.length + 20 * (ds.length * time - stamps ds)) ≤
      20 * secondsPerYear * (principal / 20 * time / secondsPerYear)
        - amounts ds * time + weighted ds := by
    rcases ds with _ | ⟨e, ds⟩
    · rw [sum]; simp [amounts, weighted, stamps]
    · simp only [List.length_cons] at lost ⊢
      unfold secondsPerYear
      push_cast at lost ⊢
      omega
  rw [sum_worthAt, sum_roundingAt, abs_le, ← sum]
  rw [← sum] at hyield hloss
  qify at hyield hloss
  unfold secondsPerYear at hyield hloss ⊢
  push_cast at hyield hloss ⊢
  constructor <;> linarith

end Accruals

/-! ## Balances along a run -/

/-- The balance of `user` is the deposits with their interest, at any time from
    now on; a deposit just made has added its amount to it; and the adapter pays
    the balance, if it has the tokens. -/
structure AccruesFromDeposits (here : Address) (tr : List (AdapterWorld × AdapterAction))
    (w : AdapterWorld) (user : Address) : Prop where
  worth : ∀ time, w.now ≤ time → time ≤ u64Max →
    |(balanceOf time user w.state : ℚ) - ((depositsOf user tr).map (worthAt time)).sum| ≤
      ((depositsOf user tr).map (roundingAt time)).sum
  whole : ∀ t auths amount, tr.head? = some (t, .deposit auths user amount) →
    balanceOf w.now user w.state = balanceOf w.now user t.state + amount
  paid : QuoteHolds here w.state user

/-- The yield of the principal that a deposit leaves behind never overflows. -/
def YieldFits (w : AdapterWorld) : AdapterAction → Prop
  | .deposit _ sender amount => withdrawnOf w.state.storage sender = true ∨
      (principalOf w.state.storage sender + amount) / 20 * u64Max ≤ i128Max
  | _ => True

instance (w : AdapterWorld) : (a : AdapterAction) → Decidable (YieldFits w a)
  | .deposit _ _ _ => inferInstanceAs (Decidable (_ ∨ _))
  | .initializeAdapter _ _ _ | .withdrawAll _ _ | .proposeAdmin _ _ | .acceptAdmin _
  | .moveTokens _ | .tick _ => isTrue trivial

/-- A deposit is credited no whole unit for the time from timestamp zero to now. -/
def CreditsNothing (w : AdapterWorld) : AdapterAction → Prop
  | .deposit _ sender amount => withdrawnOf w.state.storage sender = true ∨
      (principalOf w.state.storage sender + amount) / 20 * w.now / secondsPerYear =
        principalOf w.state.storage sender / 20 * w.now / secondsPerYear
  | _ => True

instance (w : AdapterWorld) : (a : AdapterAction) → Decidable (CreditsNothing w a)
  | .deposit _ _ _ => inferInstanceAs (Decidable (_ ∨ _))
  | .initializeAdapter _ _ _ | .withdrawAll _ _ | .proposeAdmin _ _ | .acceptAdmin _
  | .moveTokens _ | .tick _ => isTrue trivial

/-- The yield of every open position fits. -/
def Bounded (w : AdapterWorld) : Prop :=
  ∀ user, withdrawnOf w.state.storage user = false →
    0 ≤ principalOf w.state.storage user ∧
      principalOf w.state.storage user / 20 * u64Max ≤ i128Max

section Steps

variable {here user : Address} {tokens : Tokens} {now time : ℕ} {w w' : AdapterWorld}
  {a : AdapterAction} {tr : List (AdapterWorld × AdapterAction)}

theorem depositsOf_of_not_entry (h : a.isEntry = false) (user : Address) :
    depositsOf user ((w, a) :: tr) = depositsOf user tr := by
  cases a with
  | deposit | withdrawAll => cases h
  | _ => rfl

theorem depositsOf_deposit (auths : List Address) (sender : Address) (amount : ℤ) :
    depositsOf user ((w, .deposit auths sender amount) :: tr) =
      if sender = user then (amount, w.now) :: depositsOf user tr else depositsOf user tr := by
  unfold depositsOf
  rw [List.filterMap_cons]
  split_ifs with h <;> simp [h]

theorem Bounded.wrap_eq (hb : Bounded w) {auths : List Address} {sender : Address} {amount : ℤ}
    (hflag : withdrawnOf w.state.storage sender = false) (hpos : 0 < amount)
    (hfit : YieldFits w (.deposit auths sender amount)) :
    wrapI128 (principalOf w.state.storage sender + amount) =
      principalOf w.state.storage sender + amount := by
  have h0 := (hb sender hflag).1
  rcases hfit with h | h
  · rw [hflag] at h; cases h
  · unfold u64Max i128Max at h
    exact wrapI128_of_mem (by unfold i128Min; omega) (by unfold i128Max; omega)

theorem Bounded.step (hb : Bounded w) (hfit : YieldFits w a) (hs : AdapterStep here w a w') :
    Bounded w' := by
  cases hs.effect with
  | @deposited auths sender amount config hpos _ _ hp hf =>
    intro user huser
    rw [hf] at huser
    rw [hp]
    by_cases hu : user = sender
    · subst hu
      rw [Function.update_self, hb.wrap_eq huser hpos hfit]
      have h0 := (hb user huser).1
      rcases hfit with h | h
      · rw [huser] at h; cases h
      · exact ⟨by omega, h⟩
    · rw [Function.update_of_ne hu]; exact hb user huser
  | @withdrawn auths sender config _ _ _ hp hf =>
    intro user huser
    rw [hf] at huser
    rw [hp]
    by_cases hu : user = sender
    · subst hu; rw [Function.update_self] at huser; cases huser
    · rw [Function.update_of_ne hu] at huser ⊢; exact hb user huser
  | initialized _ _ hp => unfold Bounded; rw [principalOf_congr hp, withdrawnOf_congr hp]; exact hb
  | kept _ _ hp => unfold Bounded; rw [principalOf_congr hp, withdrawnOf_congr hp]; exact hb

theorem bounded_fresh : Bounded (.fresh tokens now) := by
  intro user _
  rw [principalOf_of_none rfl]
  unfold i128Max
  norm_num

/-- The balance of an open position. -/
theorem Bounded.balanceOf_eq (hb : Bounded w) (hi : BooksInv w)
    (hflag : withdrawnOf w.state.storage user = false) (ht : time ≤ u64Max) :
    balanceOf time user w.state = principalOf w.state.storage user +
      principalOf w.state.storage user / 20 * time / secondsPerYear := by
  obtain ⟨h0, hfit⟩ := hb user hflag
  rw [RwaAdapter.balanceOf_eq]
  cases hc : w.state.storage.config with
  | none =>
    rw [if_neg (by simp), principalOf_of_none (hi.unused hc)]
    simp
  | some config =>
    have hle : principalOf w.state.storage user / 20 * time ≤ i128Max := by
      refine le_trans ?_ hfit
      gcongr
    rw [if_pos ⟨rfl, hflag⟩, quote_of_nonneg h0 (((quoteFits_of_nonneg h0).mpr hfit).base_le h0),
      accrued_eq (Int.ediv_nonneg h0 (by norm_num)), if_pos hle]

/-- As long as no deposit is credited for the time before it, the deposits of an
    open position account for its principal. -/
theorem accrual_of_each (hrun : Run (fun w a w' => AdapterStep here w a w' ∧ YieldFits w a)
      (.fresh tokens now) tr w) (hC : EachStep (fun _ w a => CreditsNothing w a) tr) :
    ∀ user, withdrawnOf w.state.storage user = false →
      Accrual (depositsOf user tr) (principalOf w.state.storage user) w.now := by
  induction hrun with
  | nil => exact fun user _ => Accrual.nil now
  | @snoc tr t a u hr hs ih =>
    have hold := ih hC.2
    have hb : Bounded t := hr.invariant (fun _ _ _ h hs => h.step hs.2 hs.1) bounded_fresh
    have hcredit := hC.1
    have hfit := hs.2
    cases hs.1.effect with
    | @deposited auths sender amount config hpos _ _ hp hf _ hnow =>
      intro user huser
      rw [hf] at huser
      rw [depositsOf_deposit, hp, hnow]
      by_cases hu : user = sender
      · subst hu
        rw [if_pos rfl, Function.update_self, hb.wrap_eq huser hpos hfit]
        rcases hcredit with h | h
        · rw [huser] at h; cases h
        · exact (hold user huser).deposit hpos h
      · rw [if_neg (Ne.symm hu), Function.update_of_ne hu]
        exact hold user huser
    | @withdrawn auths sender config _ _ _ hp hf _ hnow =>
      intro user huser
      rw [hf] at huser
      rw [hp, hnow]
      by_cases hu : user = sender
      · subst hu; rw [Function.update_self] at huser; cases huser
      · rw [Function.update_of_ne hu] at huser ⊢
        exact hold user huser
    | initialized _ _ hp _ hnow =>
      intro user huser
      rw [withdrawnOf_congr hp] at huser
      rw [principalOf_congr hp, hnow]
      exact hold user huser
    | kept ha _ hp _ hnow =>
      intro user huser
      rw [withdrawnOf_congr hp] at huser
      rw [depositsOf_of_not_entry ha, principalOf_congr hp]
      exact (hold user huser).later hnow

theorem Bounded.quoteHolds (hb : Bounded w) (hi : BooksInv w) (user : Address) :
    QuoteHolds here w.state user := by
  refine (forall_quoteHolds_iff hi).mpr (fun u => ?_) user
  cases hflag : withdrawnOf w.state.storage u with
  | true => exact .inl rfl
  | false => exact .inr ((quoteFits_of_nonneg (hb u hflag).1).mpr (hb u hflag).2)

/-- A deposit to an open position adds its amount to the balance exactly if it is
    credited nothing for the time before it. -/
theorem balance_deposited_iff (hb : Bounded w) (hi : BooksInv w) (hb' : Bounded w')
    (hi' : BooksInv w') {auths : List Address} {sender : Address} {amount : ℤ}
    (heff : BookEffect w w' (.deposit auths sender amount))
    (hfit : YieldFits w (.deposit auths sender amount))
    (hflag : withdrawnOf w.state.storage sender = false) (hnow : w'.now ≤ u64Max) :
    balanceOf w'.now sender w'.state = balanceOf w'.now sender w.state + amount ↔
      CreditsNothing w (.deposit auths sender amount) := by
  cases heff with
  | @deposited _ _ _ config hpos _ _ hp hf _ hnow' =>
    have hflag' : withdrawnOf w'.state.storage sender = false := by rw [hf]; exact hflag
    rw [hb'.balanceOf_eq hi' hflag' hnow, hb.balanceOf_eq hi hflag hnow, hp,
      Function.update_self, hb.wrap_eq hflag hpos hfit, hnow']
    constructor
    · intro h
      exact .inr (by omega)
    · rintro (h | h)
      · rw [hflag] at h; cases h
      · omega
  | kept ha => cases ha

theorem withdrawnOf_deposited {auths : List Address} {sender : Address} {amount : ℤ}
    (heff : BookEffect w w' (.deposit auths sender amount)) :
    withdrawnOf w'.state.storage = withdrawnOf w.state.storage := by
  cases heff with
  | deposited _ _ _ _ hf => exact hf
  | kept ha => cases ha

theorem AdapterStep.now_le (hs : AdapterStep here w a w') (h : w.now ≤ u64Max) :
    w'.now ≤ u64Max := by
  cases hs with
  | tick _ ht => exact ht
  | _ => exact h

/-- What an open position amounts to, from its deposits. -/
theorem accruesFromDeposits_of (hb : Bounded w) (hi : BooksInv w)
    (hflag : withdrawnOf w.state.storage user = false)
    (hacc : Accrual (depositsOf user tr) (principalOf w.state.storage user) w.now)
    (hwhole : ∀ t auths amount, tr.head? = some (t, .deposit auths user amount) →
      balanceOf w.now user w.state = balanceOf w.now user t.state + amount) :
    AccruesFromDeposits here tr w user where
  worth time hle ht := by
    rw [hb.balanceOf_eq hi hflag ht]
    exact (hacc.later hle).worth
  whole := hwhole
  paid := hb.quoteHolds hi user

/-- As long as no yield overflows, the balance of every user who has not
    withdrawn is the deposits with their interest, up to rounding, and every
    deposit is at first worth its amount, all along exactly the runs in which no
    deposit is credited a whole unit for the time before it. -/
theorem accrues_iff (hnow : now ≤ u64Max)
    (hrun : Run (AdapterStep here) (.fresh tokens now) tr w)
    (hfit : ∀ e ∈ tr, YieldFits e.1 e.2) :
    AlongRun (fun tr w => ∀ user, withdrawnOf w.state.storage user = false →
      AccruesFromDeposits here tr w user) tr w ↔
        EachStep (fun _ w a => CreditsNothing w a) tr := by
  refine (hrun.restrict hfit).alongRun_iff_of_each ?_ ?_
  · intro user hflag
    exact accruesFromDeposits_of bounded_fresh (booksInv_fresh tokens now) hflag (Accrual.nil now)
      fun _ _ _ h => by cases h
  · intro tr t a u hr hC hs
    have hi : BooksInv t := hr.invariant (fun _ _ _ h hs => h.step hs.1) (booksInv_fresh tokens now)
    have hb : Bounded t := hr.invariant (fun _ _ _ h hs => h.step hs.2 hs.1) bounded_fresh
    have ht : t.now ≤ u64Max :=
      hr.invariant (I := fun t => t.now ≤ u64Max) (fun _ _ _ h hs => hs.1.now_le h) hnow
    have hdep : ∀ auths sender amount, a = .deposit auths sender amount →
        withdrawnOf u.state.storage sender = false →
        (balanceOf u.now sender u.state = balanceOf u.now sender t.state + amount ↔
          CreditsNothing t a) := by
      rintro auths sender amount rfl hflag
      rw [withdrawnOf_deposited hs.1.effect] at hflag
      exact balance_deposited_iff hb hi (hb.step hs.2 hs.1) (hi.step hs.1) hs.1.effect hs.2 hflag
        (hs.1.now_le ht)
    constructor
    · intro hacc
      cases a with
      | deposit auths sender amount =>
        cases hflag : withdrawnOf u.state.storage sender with
        | true => exact .inl (by rw [← withdrawnOf_deposited hs.1.effect]; exact hflag)
        | false =>
          exact (hdep auths sender amount rfl hflag).mp
            ((hacc sender hflag).whole t auths amount rfl)
      | _ => trivial
    · intro hcredit user hflag
      refine accruesFromDeposits_of (hb.step hs.2 hs.1) (hi.step hs.1) hflag
        (accrual_of_each (hr.snoc hs) ⟨hcredit, hC⟩ user hflag) ?_
      intro _ auths amount hhead
      cases hhead
      exact (hdep auths user amount rfl hflag).mpr hcredit

end Steps

/-- Deposits of 100 at timestamps 0 and 1000 accrue from then on. -/
theorem accrues_early : ∃ tr w,
    Run (AdapterStep ⟨0⟩) (.fresh (fun _ => Ledger.empty) 0) tr w ∧
      depositsOf ⟨3⟩ tr = [(100, 1000), (100, 0)] ∧
      AlongRun (fun tr w => ∀ user, withdrawnOf w.state.storage user = false →
        AccruesFromDeposits ⟨0⟩ tr w user) tr w := by
  have hrun : Run (AdapterStep ⟨0⟩) (.fresh (fun _ => Ledger.empty) 0)
      [(_, .deposit [⟨3⟩] ⟨3⟩ 100), (_, .tick 1000), (_, .deposit [⟨3⟩] ⟨3⟩ 100),
        (_, .initializeAdapter [⟨1⟩] ⟨1⟩ ⟨2⟩)] _ :=
    .snoc (.snoc (.snoc (.snoc .nil (.initializeAdapter rfl)) (.deposit (by decide) rfl))
      (.tick (by decide) (by decide))) (.deposit (by decide) rfl)
  exact ⟨_, _, hrun, rfl,
    (accrues_iff (by decide) hrun (by decide +kernel)).mpr (by decide +kernel)⟩

/-- At the start of 2025 a deposit of 1000000 is read, at the same timestamp, as
    3751917. -/
theorem not_accrues : ∃ tr w,
    Run (AdapterStep ⟨0⟩) (.fresh (fun _ => Ledger.empty) 1735689600) tr w ∧
      withdrawnOf w.state.storage ⟨3⟩ = false ∧ depositsOf ⟨3⟩ tr = [(1000000, w.now)] ∧
      balanceOf w.now ⟨3⟩ w.state = 3751917 ∧ ¬ AccruesFromDeposits ⟨0⟩ tr w ⟨3⟩ := by
  have hrun : Run (AdapterStep ⟨0⟩) (.fresh (fun _ => Ledger.empty) 1735689600)
      [(_, .deposit [⟨3⟩] ⟨3⟩ 1000000), (_, .initializeAdapter [⟨1⟩] ⟨1⟩ ⟨2⟩)] _ :=
    .snoc (.snoc .nil (.initializeAdapter rfl)) (.deposit (by decide) rfl)
  refine ⟨_, _, hrun, rfl, rfl, by decide +kernel, fun hacc => ?_⟩
  have hwhole := hacc.whole _ _ _ rfl
  revert hwhole
  decide +kernel

end InverseArena.RwaAdapter
