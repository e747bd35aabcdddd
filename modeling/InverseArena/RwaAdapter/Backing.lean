import InverseArena.RwaAdapter.Contract
import InverseArena.Library.Transition

/-!
# What backs the positions of the RWA adapter

`deposit` (lib.rs:37-57) records a principal and moves no token, while
`withdraw_all` (lib.rs:59-120) pays principal and yield out of whatever the
adapter holds. The positions are backed only by tokens that were sent to the
adapter on the side.

Results:
* `adapter_backed`: in every run in which each deposit is covered in advance
  and each withdrawal's yield is covered by the surplus, the adapter holds at
  least the recorded principals, and no withdrawal pays less than its own.
* `deposit_unbacks`: a deposit that is not covered in advance leaves the
  recorded principals above the balance.
* `deposit_not_backed`: one deposit on a fresh adapter does so.
-/

namespace InverseArena.RwaAdapter

open MachineInt Host KeyedMap Transition

/-- The adapter, the token contracts and the ledger time. -/
structure AdapterWorld where
  state : RwaState
  now : ℕ

/-- A freshly deployed adapter on a network with the given tokens. -/
def AdapterWorld.fresh (tokens : Tokens) (now : ℕ) : AdapterWorld :=
  ⟨⟨.fresh, tokens⟩, now⟩

/-- What can happen: a call to the adapter by anyone, token movements by
    others (donations to the adapter included), the passing of time. -/
inductive AdapterAction where
  | initializeAdapter (auths : List Address) (admin stakeToken : Address)
  | deposit (auths : List Address) (sender : Address) (amount : ℤ)
  | withdrawAll (auths : List Address) (sender : Address)
  | proposeAdmin (auths : List Address) (newAdmin : Address)
  | acceptAdmin (auths : List Address)
  | moveTokens (tokens : Tokens)
  | tick (time : ℕ)

/-- One step of the adapter deployed at `here`. A failing call is rolled back
    and is no step. The adapter makes no call that needs its own
    authorization, so it authorizes none, and its balances fall only through
    its own transfers. -/
inductive AdapterStep (here : Address) : AdapterWorld → AdapterAction → AdapterWorld → Prop
  | initializeAdapter {w h auths admin stakeToken} :
      RwaAdapter.initializeAdapter auths admin stakeToken w.state = .ok h →
      AdapterStep here w (.initializeAdapter auths admin stakeToken) { w with state := h }
  | deposit {w h auths sender amount} : here ∉ auths →
      RwaAdapter.deposit auths sender amount w.state = .ok h →
      AdapterStep here w (.deposit auths sender amount) { w with state := h }
  | withdrawAll {w h auths sender paid} : here ∉ auths →
      RwaAdapter.withdrawAll here w.now auths sender w.state = .ok (paid, h) →
      AdapterStep here w (.withdrawAll auths sender) { w with state := h }
  | proposeAdmin {w h auths newAdmin} :
      RwaAdapter.proposeAdmin auths newAdmin w.state = .ok h →
      AdapterStep here w (.proposeAdmin auths newAdmin) { w with state := h }
  | acceptAdmin {w h auths} : RwaAdapter.acceptAdmin auths w.state = .ok h →
      AdapterStep here w (.acceptAdmin auths) { w with state := h }
  | moveTokens {w tokens} :
      (∀ token, w.state.tokens.balance token here ≤ tokens.balance token here) →
      AdapterStep here w (.moveTokens tokens) { w with state := { w.state with tokens := tokens } }
  | tick {w time} : w.now ≤ time → time ≤ u64Max →
      AdapterStep here w (.tick time) { w with now := time }

/-- The principal recorded for `user`. -/
def principalOf (s : RwaStorage) (user : Address) : ℤ := (s.loadPosition user).principal

/-- The sum of the recorded principals of all users. -/
noncomputable def recorded (s : RwaStorage) : ℤ := ∑ᶠ user, principalOf s user

/-- The yield `withdraw_all` adds to the principal of `user` at time `now`. -/
def yieldOf (s : RwaStorage) (now : ℕ) (user : Address) : ℤ :=
  accrued ((baseYield (principalOf s user)).getD 0) now

/-- The adapter at `here` holds at least the recorded principals. -/
def Backed (here : Address) (w : AdapterWorld) : Prop :=
  ∀ config, w.state.storage.config = some config →
    recorded w.state.storage ≤ w.state.tokens.balance config.stakeToken here

/-- A deposit is covered by tokens the adapter already holds beyond the
    recorded principals; a withdrawal's yield is covered by that surplus, or
    nobody else has a principal. -/
def Covered (here : Address) (w : AdapterWorld) : AdapterAction → Prop
  | .deposit _ _ amount => ∀ config, w.state.storage.config = some config →
      recorded w.state.storage + amount ≤ w.state.tokens.balance config.stakeToken here
  | .withdrawAll _ sender => ∀ config, w.state.storage.config = some config →
      yieldOf w.state.storage w.now sender ≤
          w.state.tokens.balance config.stakeToken here - recorded w.state.storage ∨
        recorded w.state.storage = principalOf w.state.storage sender
  | _ => True

/-! ## The recorded total -/

theorem principalOf_savePosition (s : RwaStorage) (user : Address) (pos : YieldAccrual) :
    principalOf (s.savePosition user pos) =
      Function.update (principalOf s) user pos.principal := by
  funext u
  unfold principalOf
  rw [RwaStorage.loadPosition_savePosition]
  by_cases h : u = user
  · subst h; simp
  · simp [h]

/-- Only `position` matters for the recorded principals. -/
theorem principalOf_congr {s s' : RwaStorage} (h : s'.position = s.position) :
    principalOf s' = principalOf s := by
  funext u; unfold principalOf RwaStorage.loadPosition; rw [h]

theorem recorded_congr {s s' : RwaStorage} (h : principalOf s' = principalOf s) :
    recorded s' = recorded s := by
  unfold recorded; rw [h]

theorem recorded_update {s s' : RwaStorage} {user : Address} {x : ℤ}
    (hfin : (Function.support (principalOf s)).Finite)
    (h : principalOf s' = Function.update (principalOf s) user x) :
    recorded s' = recorded s - principalOf s user + x := by
  unfold recorded; rw [h]; exact finsum_update hfin user x

theorem principalOf_of_none {s : RwaStorage} (h : s.position = fun _ => none) :
    principalOf s = fun _ => 0 := by
  funext u; unfold principalOf RwaStorage.loadPosition; rw [h]; rfl

theorem recorded_of_none {s : RwaStorage} (h : s.position = fun _ => none) : recorded s = 0 := by
  unfold recorded; rw [principalOf_of_none h]; exact finsum_zero

/-! ## The invariant -/

/-- Backed positions, together with what the induction needs: principals are
    non-negative and finitely many, and none exists before initialization. -/
structure BackingInv (here : Address) (w : AdapterWorld) : Prop where
  nonneg : ∀ user, 0 ≤ principalOf w.state.storage user
  finite : (Function.support (principalOf w.state.storage)).Finite
  unused : w.state.storage.initialized = false → w.state.storage.position = fun _ => none
  configured : w.state.storage.config ≠ none → w.state.storage.initialized = true
  backed : Backed here w

theorem backingInv_fresh (here : Address) (tokens : Tokens) (now : ℕ) :
    BackingInv here (.fresh tokens now) where
  nonneg := fun _ => le_rfl
  finite := by
    have h : principalOf (AdapterWorld.fresh tokens now).state.storage = fun _ => 0 :=
      principalOf_of_none rfl
    rw [h]; simp
  unused := fun _ => rfl
  configured := fun h => absurd rfl h
  backed := fun _ h => nomatch h

section Steps

variable {here sender : Address} {w : AdapterWorld} {auths : List Address} {amount paid : ℤ}
  {h : RwaState}

theorem BackingInv.le_recorded (hi : BackingInv here w) (user : Address) :
    principalOf w.state.storage user ≤ recorded w.state.storage :=
  le_finsum hi.finite hi.nonneg user

/-- A change that keeps the positions, the flag and the token of the
    configuration, and does not lower the adapter's balance. -/
theorem BackingInv.frame (hi : BackingInv here w) {w' : AdapterWorld}
    (hp : w'.state.storage.position = w.state.storage.position)
    (hf : w'.state.storage.initialized = w.state.storage.initialized)
    (hc : ∀ c', w'.state.storage.config = some c' →
      ∃ c, w.state.storage.config = some c ∧ c'.stakeToken = c.stakeToken)
    (hb : ∀ token, w.state.tokens.balance token here ≤ w'.state.tokens.balance token here) :
    BackingInv here w' where
  nonneg := by rw [principalOf_congr hp]; exact hi.nonneg
  finite := by rw [principalOf_congr hp]; exact hi.finite
  unused := by rw [hp, hf]; exact hi.unused
  configured := by
    intro hne
    obtain ⟨c', hc'⟩ := Option.ne_none_iff_exists'.mp hne
    obtain ⟨c, hcc, -⟩ := hc c' hc'
    rw [hf]
    exact hi.configured (by rw [hcc]; simp)
  backed := by
    intro c' hc'
    obtain ⟨c, hcc, htok⟩ := hc c' hc'
    rw [recorded_congr (principalOf_congr hp), htok]
    exact (hi.backed c hcc).trans (hb _)

/-- What a deposit does: it adds to the sender's principal, and moves nothing. -/
theorem deposit_cases (hd : RwaAdapter.deposit auths sender amount w.state = .ok h) :
    0 < amount ∧ ∃ config, w.state.storage.config = some config ∧
      principalOf h.storage = Function.update (principalOf w.state.storage) sender
        (wrapI128 (principalOf w.state.storage sender + amount)) ∧
      h.storage.initialized = w.state.storage.initialized ∧
      (∃ config', h.storage.config = some config' ∧ config'.stakeToken = config.stakeToken) ∧
      h.tokens = w.state.tokens := by
  obtain ⟨-, hpos, config, hc, rfl⟩ := deposit_eq_ok.mp hd
  exact ⟨hpos, config, hc, (principalOf_congr rfl).trans (principalOf_savePosition _ _ _), rfl,
    ⟨_, rfl, rfl⟩, rfl⟩

/-- The principal of one user changes, within the balance. -/
theorem BackingInv.record (hi : BackingInv here w) {config : RwaConfig} {principal : ℤ}
    (hc : w.state.storage.config = some config)
    (hp : principalOf h.storage =
      Function.update (principalOf w.state.storage) sender principal) (h0 : 0 ≤ principal)
    (hinit : h.storage.initialized = w.state.storage.initialized)
    (hconfig : ∃ config', h.storage.config = some config' ∧
      config'.stakeToken = config.stakeToken)
    (hbacked : recorded h.storage ≤ h.tokens.balance config.stakeToken here) :
    BackingInv here { w with state := h } := by
  obtain ⟨config', hc', htok⟩ := hconfig
  have hflag := hi.configured (by rw [hc]; simp)
  exact {
    nonneg := by
      rw [hp]
      intro user
      by_cases hu : user = sender
      · subst hu; rw [Function.update_self]; exact h0
      · rw [Function.update_of_ne hu]; exact hi.nonneg user
    finite := by rw [hp]; exact support_update_finite hi.finite _ _
    unused := by
      intro hf
      change h.storage.initialized = false at hf
      rw [hinit, hflag] at hf; cases hf
    configured := fun _ => hinit.trans hflag
    backed := by
      intro c hcc
      obtain rfl : config' = c := Option.some.inj (hc'.symm.trans hcc)
      rw [htok]
      exact hbacked }

/-- A covered deposit does not wrap, and stays within the balance. -/
theorem BackingInv.deposit (hi : BackingInv here w)
    (hcov : Covered here w (.deposit auths sender amount))
    (hd : RwaAdapter.deposit auths sender amount w.state = .ok h) :
    BackingInv here { w with state := h } := by
  obtain ⟨hpos, config, hc, hp, hinit, hconfig, htokens⟩ := deposit_cases hd
  have hbal : recorded w.state.storage + amount ≤ (w.state.tokens config.stakeToken).balance here :=
    hcov config hc
  have hle := hi.le_recorded sender
  have hmax := (w.state.tokens config.stakeToken).balance_le here
  have h0 := hi.nonneg sender
  rw [wrapI128_of_mem (by unfold i128Min; omega) (by omega)] at hp
  refine hi.record hc hp (by omega) hinit hconfig ?_
  rw [recorded_update hi.finite hp, htokens]
  unfold Tokens.balance
  omega

/-- What a withdrawal does in backed states: the principal is cleared, at
    least the principal and at most principal and yield are paid. -/
theorem BackingInv.withdrawAll_cases (hi : BackingInv here w) (hhere : here ∉ auths)
    (hw : RwaAdapter.withdrawAll here w.now auths sender w.state = .ok (paid, h)) :
    ∃ config, w.state.storage.config = some config ∧
      principalOf h.storage = Function.update (principalOf w.state.storage) sender 0 ∧
      h.storage.initialized = w.state.storage.initialized ∧
      (∃ config', h.storage.config = some config' ∧ config'.stakeToken = config.stakeToken) ∧
      0 ≤ yieldOf w.state.storage w.now sender ∧
      paid = min (principalOf w.state.storage sender + yieldOf w.state.storage w.now sender)
        (w.state.tokens.balance config.stakeToken here) ∧
      h.tokens.balance config.stakeToken here =
        w.state.tokens.balance config.stakeToken here - paid := by
  obtain ⟨ha, config, base, total, tokens, hc, -, -, hbase, htotal, rfl, htr, rfl⟩ :=
    withdrawAll_eq_ok.mp hw
  have h0 : 0 ≤ (w.state.storage.loadPosition sender).principal := hi.nonneg sender
  have hy : yieldOf w.state.storage w.now sender = accrued base w.now := by
    unfold yieldOf principalOf; rw [hbase]; rfl
  have htot : total = principalOf w.state.storage sender + accrued base w.now := by
    unfold checkedAddI128 checkedI128 at htotal
    split_ifs at htotal
    exact (Option.some.inj htotal).symm
  have hne : sender ≠ here := by rintro rfl; exact hhere ha
  refine ⟨config, hc, ?_, rfl, ⟨_, rfl, rfl⟩, ?_, ?_, ?_⟩
  · exact (principalOf_congr rfl).trans (principalOf_savePosition _ _ _)
  · rw [hy]; exact (accrued_bounds (baseYield_nonneg h0 hbase) _).1
  · rw [hy, htot]
  · obtain ⟨-, -, hmove, -⟩ := Tokens.transfer_eq_some htr
    rw [hmove, move_apply, if_pos rfl, if_neg hne.symm]
    omega

theorem BackingInv.withdrawAll (hi : BackingInv here w) (hhere : here ∉ auths)
    (hcov : Covered here w (.withdrawAll auths sender))
    (hw : RwaAdapter.withdrawAll here w.now auths sender w.state = .ok (paid, h)) :
    BackingInv here { w with state := h } := by
  obtain ⟨config, hc, hp, hinit, hconfig, hy, hpaid, hbal⟩ := hi.withdrawAll_cases hhere hw
  have hb := hi.backed config hc
  have hle := hi.le_recorded sender
  refine hi.record hc hp le_rfl hinit hconfig ?_
  rw [recorded_update hi.finite hp, hbal]
  rcases hcov config hc with hs | hs <;> omega

theorem backingInv_step {a : AdapterAction} {w' : AdapterWorld} (hi : BackingInv here w)
    (hcov : Covered here w a) (hs : AdapterStep here w a w') : BackingInv here w' := by
  cases hs with
  | @initializeAdapter h auths admin stakeToken hinit =>
    simp only [RwaAdapter.initializeAdapter, Fallible.bind_eq_ok, requireAuth_eq_ok, check_eq_ok,
      Fallible.pure_eq_ok, exists_const] at hinit
    obtain ⟨-, hfalse, rfl⟩ := hinit
    have hnone := hi.unused hfalse
    exact {
      nonneg := hi.nonneg
      finite := hi.finite
      unused := fun hf => by cases hf
      configured := fun _ => rfl
      backed := fun c _ =>
        (recorded_of_none hnone).le.trans ((w.state.tokens c.stakeToken).nonneg here) }
  | deposit hhere hd => exact hi.deposit hcov hd
  | withdrawAll hhere hw => exact hi.withdrawAll hhere hcov hw
  | proposeAdmin hp =>
    simp only [RwaAdapter.proposeAdmin, RwaStorage.loadConfig, Fallible.bind_eq_ok,
      requireAuth_eq_ok, okOr_eq_ok, Fallible.pure_eq_ok, exists_const] at hp
    obtain ⟨config, hc, -, rfl⟩ := hp
    exact hi.frame rfl rfl (fun c hcc => ⟨c, hcc, rfl⟩) (fun _ => le_rfl)
  | acceptAdmin ha =>
    simp only [RwaAdapter.acceptAdmin, RwaStorage.loadConfig, Fallible.bind_eq_ok,
      requireAuth_eq_ok, okOr_eq_ok, Fallible.pure_eq_ok, exists_const] at ha
    obtain ⟨newAdmin, -, -, config, hc, rfl⟩ := ha
    refine hi.frame rfl rfl (fun c hcc => ⟨config, hc, ?_⟩) (fun _ => le_rfl)
    cases hcc
    rfl
  | moveTokens hb => exact hi.frame rfl rfl (fun c hcc => ⟨c, hcc, rfl⟩) hb
  | tick => exact hi.frame rfl rfl (fun c hcc => ⟨c, hcc, rfl⟩) (fun _ => le_rfl)

end Steps

/-! ## Main results -/

/-- In every run whose deposits are covered in advance and whose withdrawals
    take their yield from a surplus, the adapter holds at least the recorded
    principals of all users in every state, and every withdrawal pays at least
    the principal recorded for its user. -/
theorem adapter_backed {here : Address} {tokens : Tokens} {now : ℕ}
    {tr : List (AdapterWorld × AdapterAction)} {w : AdapterWorld}
    (hrun : Run (AdapterStep here) (.fresh tokens now) tr w)
    (hcov : ∀ e ∈ tr, Covered here e.1 e.2) :
    Backed here w ∧
      ∀ auths sender paid h, here ∉ auths →
        withdrawAll here w.now auths sender w.state = .ok (paid, h) →
        principalOf w.state.storage sender ≤ paid := by
  have hi : BackingInv here w :=
    hrun.invariant_of_forall (fun _ _ _ hi hc hs => backingInv_step hi hc hs) hcov
      (backingInv_fresh here tokens now)
  refine ⟨hi.backed, fun auths sender paid h hhere hw => ?_⟩
  obtain ⟨config, hc, -, -, -, hy, rfl, -⟩ := hi.withdrawAll_cases hhere hw
  have hb := hi.backed config hc
  have hle := hi.le_recorded sender
  omega

/-- A donation of 100 covers a deposit of 100. -/
theorem adapter_backed_donation : ∃ tr w,
    Run (AdapterStep ⟨0⟩) (.fresh (fun _ => Ledger.empty.mintAll [(⟨0⟩, 100)]) 0) tr w ∧
      principalOf w.state.storage ⟨3⟩ = 100 ∧ Backed ⟨0⟩ w := by
  have hrun : Run (AdapterStep ⟨0⟩) (.fresh (fun _ => Ledger.empty.mintAll [(⟨0⟩, 100)]) 0)
      [(_, .deposit [⟨3⟩] ⟨3⟩ 100), (_, .initializeAdapter [⟨1⟩] ⟨1⟩ ⟨2⟩)] _ :=
    .snoc (.snoc .nil (.initializeAdapter rfl)) (.deposit (by decide) rfl)
  refine ⟨_, _, hrun, rfl, (adapter_backed hrun ?_).1⟩
  intro e he
  rcases List.mem_cons.mp he with rfl | he
  · intro config hc
    cases hc
    rw [recorded_of_none rfl]
    decide
  · rcases List.mem_cons.mp he with rfl | he
    · trivial
    · cases he

/-- A deposit that is not covered in advance, and does not wrap, leaves the
    recorded principals above the balance. -/
theorem deposit_unbacks {here sender : Address} {auths : List Address} {amount : ℤ}
    {w : AdapterWorld} {h : RwaState}
    (hfin : (Function.support (principalOf w.state.storage)).Finite)
    (h0 : 0 ≤ principalOf w.state.storage sender)
    (hfit : principalOf w.state.storage sender + amount ≤ i128Max)
    (hd : deposit auths sender amount w.state = .ok h)
    (hcov : ¬ Covered here w (.deposit auths sender amount)) :
    ¬ Backed here { w with state := h } := by
  obtain ⟨hpos, config, hc, hp, -, ⟨config', hc', htok⟩, htokens⟩ := deposit_cases hd
  intro hb
  refine hcov fun c hcc => ?_
  obtain rfl : config = c := Option.some.inj (hc.symm.trans hcc)
  have hb := hb config' hc'
  rw [wrapI128_of_mem (by unfold i128Min; omega) hfit] at hp
  rw [recorded_update hfin hp, htok] at hb
  change _ ≤ h.tokens.balance config.stakeToken here at hb
  rw [htokens] at hb
  omega

/-- One deposit of 100 on a fresh adapter leaves 100 recorded and nothing held. -/
theorem deposit_not_backed : ∃ tr w,
    Run (AdapterStep ⟨0⟩) (.fresh (fun _ => Ledger.empty) 0) tr w ∧ ¬ Backed ⟨0⟩ w := by
  have hrun : Run (AdapterStep ⟨0⟩) (.fresh (fun _ => Ledger.empty) 0)
      [(_, .deposit [⟨3⟩] ⟨3⟩ 100), (_, .initializeAdapter [⟨1⟩] ⟨1⟩ ⟨2⟩)] _ :=
    .snoc (.snoc .nil (.initializeAdapter rfl)) (.deposit (by decide) rfl)
  refine ⟨_, _, hrun, @deposit_unbacks ⟨0⟩ ⟨3⟩ [⟨3⟩] 100
    ⟨⟨{ RwaStorage.fresh with config := some ⟨⟨1⟩, ⟨2⟩, 0⟩, initialized := true },
      fun _ => Ledger.empty⟩, 0⟩ _ ?_ le_rfl (by decide) rfl fun hcov => ?_⟩
  · rw [principalOf_of_none rfl]; simp
  · have h := hcov _ rfl
    rw [recorded_of_none rfl] at h
    revert h
    decide

end InverseArena.RwaAdapter
