import InverseArena.RwaAdapter.Books

/-!
# The totals of the adapter in the release build

`deposit` adds with plain `+=`, which wraps without overflow checks, and
`withdraw_all` subtracts with saturation (`contract/rwa-adapter/src/lib.rs`,
lines 44-50 and 92-94). No token moves with a deposit, so nothing but the
amounts bounds the sums.

Results:
* `totals_exact_iff`: the principals and the total are the mathematical sums all
  along exactly the runs whose deposits keep the total an `i128`.
* `not_totals_exact`: two deposits whose sum wraps around.
-/

namespace InverseArena.RwaAdapter

open MachineInt Host KeyedMap Transition

/-- What `user` has deposited since the last withdrawal, in the steps `tr`. -/
def unwithdrawn (user : Address) : List (AdapterWorld × AdapterAction) → ℤ
  | [] => 0
  | e :: tr =>
    match e.2 with
    | .deposit _ sender amount => unwithdrawn user tr + if sender = user then amount else 0
    | .withdrawAll _ sender => if sender = user then 0 else unwithdrawn user tr
    | _ => unwithdrawn user tr

/-- Every principal is the sum of the deposits not yet withdrawn, and the total
    is the sum of the principals. -/
structure TotalsExact (tr : List (AdapterWorld × AdapterAction)) (w : AdapterWorld) : Prop where
  principal : ∀ user, principalOf w.state.storage user = unwithdrawn user tr
  total : ∀ config ∈ w.state.storage.config, config.totalDeposited = recorded w.state.storage

/-- A deposit that keeps the total an `i128`. -/
def AddsUp (w : AdapterWorld) : AdapterAction → Prop
  | .deposit _ _ amount =>
    ∀ config ∈ w.state.storage.config, config.totalDeposited + amount ≤ i128Max
  | _ => True

section Steps

variable {here : Address} {tokens : Tokens} {now : ℕ} {w w' : AdapterWorld} {a : AdapterAction}
  {tr : List (AdapterWorld × AdapterAction)}

theorem unwithdrawn_of_not_entry (h : a.isEntry = false) (user : Address) :
    unwithdrawn user ((w, a) :: tr) = unwithdrawn user tr := by
  cases a with
  | deposit | withdrawAll => cases h
  | _ => rfl

theorem addsUp_of_not_entry (h : a.isEntry = false) : AddsUp w a := by
  cases a with
  | deposit | withdrawAll => cases h
  | _ => trivial

theorem unwithdrawn_nonneg (hrun : Run (AdapterStep here) (.fresh tokens now) tr w)
    (user : Address) : 0 ≤ unwithdrawn user tr := by
  induction hrun with
  | nil => exact le_rfl
  | @snoc tr t a u hr hs ih =>
    cases hs.effect with
    | @deposited auths sender amount config hpos =>
      change 0 ≤ unwithdrawn user tr + if sender = user then amount else 0
      split_ifs <;> omega
    | @withdrawn auths sender config =>
      change 0 ≤ if sender = user then 0 else unwithdrawn user tr
      split_ifs
      · exact le_rfl
      · exact ih
    | initialized => exact ih
    | kept ha => rw [unwithdrawn_of_not_entry ha]; exact ih

theorem TotalsExact.le_recorded (hex : TotalsExact tr w) (hi : BooksInv w)
    (hnn : ∀ user, 0 ≤ unwithdrawn user tr) (user : Address) :
    principalOf w.state.storage user ≤ recorded w.state.storage :=
  le_finsum hi.finite (fun u => by rw [hex.principal]; exact hnn u) user

/-- A deposit keeps the sums exact exactly if the total still fits. -/
theorem TotalsExact.deposited_iff (hex : TotalsExact tr w) (hi : BooksInv w)
    (hnn : ∀ user, 0 ≤ unwithdrawn user tr) {auths : List Address} {sender : Address} {amount : ℤ}
    {config : RwaConfig} (hpos : 0 < amount) (hc : w.state.storage.config = some config)
    (hc' : w'.state.storage.config = some { config with
      totalDeposited := wrapI128 (config.totalDeposited + amount) })
    (hp : principalOf w'.state.storage = Function.update (principalOf w.state.storage) sender
      (wrapI128 (principalOf w.state.storage sender + amount))) :
    TotalsExact ((w, .deposit auths sender amount) :: tr) w' ↔
      config.totalDeposited + amount ≤ i128Max := by
  have htotal := hex.total config hc
  have hrec := recorded_update hi.finite hp
  have hsender := hex.principal sender
  have h0 := hnn sender
  have hle := hex.le_recorded hi hnn sender
  constructor
  · intro hex'
    have htotal' := hex'.total _ hc'
    have hsender' := hex'.principal sender
    rw [hp, Function.update_self] at hsender'
    change _ = unwithdrawn sender tr + (if sender = sender then amount else 0) at hsender'
    rw [if_pos rfl] at hsender'
    simp only at htotal'
    have hmem := (wrapI128_mem (config.totalDeposited + amount)).2
    omega
  · intro hfit
    have hwrap : wrapI128 (principalOf w.state.storage sender + amount) =
        principalOf w.state.storage sender + amount :=
      wrapI128_of_mem (by unfold i128Min; omega) (by omega)
    rw [hwrap] at hp hrec
    refine ⟨fun user => ?_, fun c hcc => ?_⟩
    · change _ = unwithdrawn user tr + if sender = user then amount else 0
      rw [hp]
      by_cases hu : user = sender
      · subst hu; rw [Function.update_self, if_pos rfl, hsender]
      · rw [Function.update_of_ne hu, if_neg (Ne.symm hu), hex.principal, add_zero]
    · obtain rfl : _ = c := Option.some.inj (hc'.symm.trans hcc)
      simp only
      rw [wrapI128_of_mem (by unfold i128Min; omega) hfit]
      omega

/-- A withdrawal always does. -/
theorem TotalsExact.withdrawn (hex : TotalsExact tr w) (hi : BooksInv w)
    (hnn : ∀ user, 0 ≤ unwithdrawn user tr) {auths : List Address} {sender : Address}
    {config : RwaConfig} (hc : w.state.storage.config = some config)
    (hc' : w'.state.storage.config = some { config with
      totalDeposited := satSubI128 config.totalDeposited (principalOf w.state.storage sender) })
    (hp : principalOf w'.state.storage = Function.update (principalOf w.state.storage) sender 0) :
    TotalsExact ((w, .withdrawAll auths sender) :: tr) w' := by
  have htotal := hex.total config hc
  have hle := hex.le_recorded hi hnn sender
  have hsender := hex.principal sender
  have h0 := hnn sender
  refine ⟨fun user => ?_, fun c hcc => ?_⟩
  · change _ = if sender = user then 0 else unwithdrawn user tr
    rw [hp]
    by_cases hu : user = sender
    · subst hu; rw [Function.update_self, if_pos rfl]
    · rw [Function.update_of_ne hu, if_neg (Ne.symm hu), hex.principal]
  · obtain rfl : _ = c := Option.some.inj (hc'.symm.trans hcc)
    have hsat : satSubI128 config.totalDeposited (principalOf w.state.storage sender) =
        config.totalDeposited - principalOf w.state.storage sender := by
      have hbound : config.totalDeposited ≤ i128Max :=
        hi.total_le _ (by rw [hc]; rfl)
      exact clampI128_of_mem (by unfold i128Min; omega) (by omega)
    simp only
    rw [hsat, recorded_update hi.finite hp]
    omega

theorem totalsExact_kept (hex : TotalsExact tr w) (ha : a.isEntry = false)
    (hp : w'.state.storage.position = w.state.storage.position)
    (htotal : ∀ config ∈ w'.state.storage.config,
      config.totalDeposited = recorded w.state.storage) : TotalsExact ((w, a) :: tr) w' where
  principal user := by
    rw [unwithdrawn_of_not_entry ha, principalOf_congr hp]
    exact hex.principal user
  total config hc := by rw [recorded_congr (principalOf_congr hp)]; exact htotal config hc

/-- A step keeps the sums exact exactly if its deposit adds up. -/
theorem TotalsExact.step_iff (hex : TotalsExact tr w) (hi : BooksInv w)
    (hnn : ∀ user, 0 ≤ unwithdrawn user tr) (heff : BookEffect w w' a) :
    TotalsExact ((w, a) :: tr) w' ↔ AddsUp w a := by
  cases heff with
  | @deposited auths sender amount config hpos hc hc' hp =>
    rw [hex.deposited_iff hi hnn hpos hc hc' hp]
    constructor
    · intro hfit c hcc
      cases hc.symm.trans hcc
      exact hfit
    · exact fun h => h config hc
  | withdrawn _ hc hc' hp => exact iff_of_true (hex.withdrawn hi hnn hc hc' hp) trivial
  | initialized hinit hc' hp =>
    refine iff_of_true (totalsExact_kept hex rfl hp fun c hcc => ?_) trivial
    have hnone : w.state.storage.config = none := by
      rw [← Option.not_isSome_iff_eq_none, hi.configured, hinit]; decide
    cases hc'.symm.trans hcc
    exact (recorded_of_none (hi.unused hnone)).symm
  | kept ha hc hp =>
    refine iff_of_true (totalsExact_kept hex ha hp fun c hcc => ?_) (addsUp_of_not_entry ha)
    rw [hcc] at hc
    obtain ⟨config, hcw, htotal⟩ := Option.map_eq_some_iff.mp hc.symm
    exact htotal.symm.trans (hex.total config hcw)

/-- All along exactly the runs whose deposits all keep the total an `i128`, the
    principals and the total are the mathematical sums. -/
theorem totals_exact_iff (hrun : Run (AdapterStep here) (.fresh tokens now) tr w) :
    AlongRun TotalsExact tr w ↔ EachStep (fun _ w a => AddsUp w a) tr := by
  refine hrun.alongRun_iff ⟨fun _ => rfl, by rintro _ ⟨⟩⟩ ?_
  intro tr t a u hr hex hs
  exact hex.step_iff (booksInv_of_run hr) (unwithdrawn_nonneg hr) hs.effect

end Steps

/-- Deposits of 100 and 50 add up. -/
theorem totals_exact_deposits : ∃ tr w,
    Run (AdapterStep ⟨0⟩) (.fresh (fun _ => Ledger.empty) 0) tr w ∧
      getTotalDeposited w.state = 150 ∧ AlongRun TotalsExact tr w := by
  have hrun : Run (AdapterStep ⟨0⟩) (.fresh (fun _ => Ledger.empty) 0)
      [(_, .deposit [⟨4⟩] ⟨4⟩ 50), (_, .deposit [⟨3⟩] ⟨3⟩ 100),
        (_, .initializeAdapter [⟨1⟩] ⟨1⟩ ⟨2⟩)] _ :=
    .snoc (.snoc (.snoc .nil (.initializeAdapter rfl)) (.deposit (by decide) rfl))
      (.deposit (by decide) rfl)
  refine ⟨_, _, hrun, by decide +kernel, (totals_exact_iff hrun).mpr ⟨?_, ?_, trivial, trivial⟩⟩
  · rintro _ ⟨⟩
    decide +kernel
  · rintro _ ⟨⟩
    decide +kernel

/-- Two users deposit `i128::MAX` each, and the total is `-2`. -/
theorem not_totals_exact : ∃ tr w,
    Run (AdapterStep ⟨0⟩) (.fresh (fun _ => Ledger.empty) 0) tr w ∧
      principalOf w.state.storage ⟨3⟩ = i128Max ∧ principalOf w.state.storage ⟨4⟩ = i128Max ∧
      getTotalDeposited w.state = -2 ∧ ¬ TotalsExact tr w := by
  have hrun : Run (AdapterStep ⟨0⟩) (.fresh (fun _ => Ledger.empty) 0)
      [(_, .deposit [⟨4⟩] ⟨4⟩ i128Max), (_, .deposit [⟨3⟩] ⟨3⟩ i128Max),
        (_, .initializeAdapter [⟨1⟩] ⟨1⟩ ⟨2⟩)] _ :=
    .snoc (.snoc (.snoc .nil (.initializeAdapter rfl)) (.deposit (by decide) rfl))
      (.deposit (by decide) rfl)
  refine ⟨_, _, hrun, by decide +kernel, by decide +kernel, by decide +kernel, fun hex => ?_⟩
  have hle := hex.le_recorded (booksInv_of_run hrun) (unwithdrawn_nonneg hrun) ⟨3⟩
  have htotal := hex.total _ rfl
  rw [← htotal] at hle
  revert hle
  decide +kernel

end InverseArena.RwaAdapter
