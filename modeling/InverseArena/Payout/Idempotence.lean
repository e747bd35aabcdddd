import InverseArena.Payout.Contract
import InverseArena.Library.Transition

/-!
# A payout id is paid at most once

However calls of the payout contract are ordered and nested, an id goes from
unpaid to paid together with the one distribution recorded for it.

Results:
* `perform_grows`: what any successful call, with all the calls nested in it,
  does to ids, distributions and transfers.
* `perform_eq_alreadyPaid`: when a distribution is refused as made before.
* `payout_idempotent`: at most one distribution per id moves tokens.
-/

namespace InverseArena.Payout

open Host MachineInt Transition

variable {N : Type}

/-- Whether a distribution is one for `payoutId`. -/
def pays (payoutId : ℕ) (e : Executed) : Bool := e.payoutId = payoutId

/-- From `w` to `w'` the distributions `fresh` have been recorded, and tokens have
    moved for them and for `pending`; an id has become paid with its only
    distribution, or is as before. -/
structure GrowsBy (fresh : List Executed) (pending : List (Address × ℤ)) (w w' : PayoutWorld N) :
    Prop where
  executed : w'.executed = fresh ++ w.executed
  moved : w'.moved.Perm (w.moved ++ (fresh.flatMap (·.payments) ++ pending))
  ids : ∀ i,
    (fresh.countP (pays i) = 0 ∧ w'.storage.isPaid i = w.storage.isPaid i) ∨
      (fresh.countP (pays i) = 1 ∧ w.storage.isPaid i = false ∧ w'.storage.isPaid i = true)

/-- `GrowsBy` some distributions. -/
def Grows (pending : List (Address × ℤ)) (w w' : PayoutWorld N) : Prop :=
  ∃ fresh, GrowsBy fresh pending w w'

/-! ## Growth -/

section Growth

variable {w w₁ w' : PayoutWorld N} {p q : List (Address × ℤ)} {i : ℕ}

theorem Grows.refl (w : PayoutWorld N) : Grows [] w w :=
  ⟨[], rfl, by simp, fun _ => .inl ⟨rfl, rfl⟩⟩

/-- A change of the network alone. -/
theorem Grows.frame (w : PayoutWorld N) (net : N) : Grows [] w { w with net := net } :=
  ⟨[], rfl, by simp, fun _ => .inl ⟨rfl, rfl⟩⟩

theorem GrowsBy.trans {l l' : List Executed} (h : GrowsBy l p w w₁) (h' : GrowsBy l' q w₁ w') :
    GrowsBy (l' ++ l) (p ++ q) w w' := by
  obtain ⟨he, hm, hi⟩ := h
  obtain ⟨he', hm', hi'⟩ := h'
  refine ⟨?_, ?_, fun i => ?_⟩
  · rw [he', he, List.append_assoc]
  · apply hm'.trans
    apply (hm.append_right _).trans
    rw [List.flatMap_append]
    -- the same transfers, in another order
    rw [List.perm_iff_count]
    intro a
    simp only [List.count_append]
    omega
  · rw [List.countP_append]
    rcases hi i with ⟨hn, hs⟩ | ⟨hn, hf, ht⟩ <;> rcases hi' i with ⟨hn', hs'⟩ | ⟨hn', hf', ht'⟩
    · exact .inl ⟨by omega, hs'.trans hs⟩
    · exact .inr ⟨by omega, hs ▸ hf', ht'⟩
    · exact .inr ⟨by omega, hf, hs'.trans ht⟩
    · rw [ht] at hf'
      cases hf'

theorem Grows.trans (h : Grows p w w₁) (h' : Grows q w₁ w') : Grows (p ++ q) w w' := by
  obtain ⟨l, hl⟩ := h
  obtain ⟨l', hl'⟩ := h'
  exact ⟨l' ++ l, hl.trans hl'⟩

/-- The distribution of an id that was unpaid, was marked, and has been paid
    for. -/
theorem Grows.distribution (hunpaid : w.storage.isPaid i = false)
    (h : Grows p { w with storage := w.storage.markPaid i } w') :
    ∃ nested, GrowsBy (⟨i, p⟩ :: nested) [] w { w' with executed := ⟨i, p⟩ :: w'.executed } := by
  obtain ⟨l, he, hm, hi⟩ := h
  refine ⟨l, ?_, ?_, fun j => ?_⟩
  · show _ :: w'.executed = _
    rw [he]
    rfl
  · apply hm.trans
    rw [List.flatMap_cons, List.append_nil]
    exact List.perm_append_comm.append_left w.moved
  · rw [List.countP_cons]
    have hj := hi j
    dsimp only at hj
    rw [PayoutStorage.isPaid_markPaid] at hj
    by_cases hji : j = i
    · subst hji
      rw [if_pos rfl] at hj
      rcases hj with ⟨hn, hs⟩ | ⟨-, hf, -⟩
      · exact .inr ⟨by simp [hn, pays], hunpaid, hs⟩
      · cases hf
    · rw [if_neg hji] at hj
      have hne : pays j ⟨i, p⟩ = false := by
        unfold pays
        simp [Ne.symm hji]
      simpa [hne] using hj

end Growth

/-! ## Calls -/

section Calls

variable {code : TokenCode N}
  {reenter : List Address → PayoutCall → PayoutWorld N → Result PayoutError (PayoutWorld N)}
  {w w' : PayoutWorld N} {token recipient winner : Address} {amount answer : ℤ} {payoutId : ℕ}
  {recipients : List (Address × ℤ)} {auths : List Address}

/-- A program does nothing to the ids but through its calls. -/
theorem runProgram_grows
    (hreenter : ∀ auths c w w', reenter auths c w = .ok w' → Grows [] w w') {p : Program N}
    (h : runProgram reenter p w = .ok (answer, w')) : Grows [] w w' := by
  induction p generalizing w with
  | done net a =>
    cases h
    exact .frame w net
  | trap => cases h
  | tryCall net auths c next ih =>
    unfold runProgram at h
    split at h
    · rename_i w₁ hcall
      exact ((Grows.frame w net).trans (hreenter _ _ _ _ hcall)).trans (ih _ _ h)
    · exact (Grows.frame w net).trans (ih _ _ h)

theorem tokenTransfer_grows
    (hreenter : ∀ auths c w w', reenter auths c w = .ok w' → Grows [] w w')
    (h : tokenTransfer code reenter token recipient amount w = .ok w') :
    Grows [(recipient, amount)] w w' := by
  simp only [tokenTransfer, Fallible.bind_eq_ok, Fallible.pure_eq_ok, Prod.exists] at h
  obtain ⟨a, w₁, hrun, rfl⟩ := h
  have hpaid : Grows [(recipient, amount)] w₁
      { w₁ with moved := w₁.moved ++ [(recipient, amount)] } :=
    ⟨[], rfl, by simp, fun _ => .inl ⟨rfl, rfl⟩⟩
  exact (runProgram_grows hreenter hrun).trans hpaid

theorem payRecipients_grows
    (hreenter : ∀ auths c w w', reenter auths c w = .ok w' → Grows [] w w')
    (h : payRecipients code reenter token recipients w = .ok w') : Grows recipients w w' := by
  induction recipients generalizing w with
  | nil =>
    obtain rfl := Fallible.pure_eq_ok.mp h
    exact .refl w
  | cons payment rest ih =>
    obtain ⟨w₁, hpay, hrest⟩ := Fallible.bind_eq_ok.mp h
    exact (tokenTransfer_grows hreenter hpay).trans (ih hrest)

theorem distributeWinnings_grows
    (hreenter : ∀ auths c w w', reenter auths c w = .ok w' → Grows [] w w')
    (h : distributeWinnings code reenter auths payoutId winner amount w = .ok w') :
    ∃ nested, GrowsBy (⟨payoutId, [(winner, amount)]⟩ :: nested) [] w
      { w' with executed := ⟨payoutId, [(winner, amount)]⟩ :: w'.executed } := by
  simp only [distributeWinnings, tokenBalance, Fallible.bind_eq_ok, requireAuth_eq_ok,
    check_eq_ok, exists_const, Prod.exists] at h
  obtain ⟨admin, -, -, -, hunpaid, token, -, balance, w₁, hread, -, hpay⟩ := h
  exact Grows.distribution hunpaid
    ((runProgram_grows hreenter hread).trans (tokenTransfer_grows hreenter hpay))

theorem distributeBatch_grows
    (hreenter : ∀ auths c w w', reenter auths c w = .ok w' → Grows [] w w')
    (h : distributeBatch code reenter auths payoutId recipients w = .ok w') :
    ∃ nested, GrowsBy (⟨payoutId, recipients⟩ :: nested) [] w
      { w' with executed := ⟨payoutId, recipients⟩ :: w'.executed } := by
  simp only [distributeBatch, tokenBalance, Fallible.bind_eq_ok, requireAuth_eq_ok,
    check_eq_ok, exists_const, Prod.exists] at h
  obtain ⟨admin, -, -, -, -, total, -, token, -, balance, w₁, hread, -, hunpaid, hpay⟩ := h
  -- what happened while the balance was read comes before the mark
  obtain ⟨l, hl⟩ := runProgram_grows hreenter hread
  obtain ⟨nested, hn⟩ := Grows.distribution hunpaid (payRecipients_grows hreenter hpay)
  exact ⟨nested ++ l, hl.trans hn⟩

/-- A successful call, with everything nested in it. The induction is on the
    depth: calls back are one level deeper. -/
theorem perform_grows {depth : ℕ} : ∀ {auths : List Address} {c : PayoutCall}
    {w w' : PayoutWorld N}, perform code depth auths c w = .ok w' →
      ∃ nested, GrowsBy (c.receipt ++ nested) [] w w' := by
  induction depth with
  | zero =>
    intro auths c w w' h
    cases h
  | succ depth ih =>
    intro auths c w w' h
    obtain ⟨w₁, hexec, hlog⟩ := Fallible.bind_eq_ok.mp h
    cases hlog
    have hreenter : ∀ auths c w w', perform code depth auths c w = .ok w' → Grows [] w w' := by
      intro auths c w w' h
      obtain ⟨nested, hn⟩ := ih h
      exact ⟨_, hn⟩
    cases c with
    | initializePayout admin token =>
      simp only [exec, initializePayout, Fallible.bind_eq_ok, requireAuth_eq_ok, check_eq_ok,
        Fallible.pure_eq_ok, exists_const] at hexec
      obtain ⟨-, -, rfl⟩ := hexec
      exact ⟨[], rfl, by simp [PayoutCall.receipt], fun _ => .inl ⟨rfl, rfl⟩⟩
    | distributeWinnings payoutId winner amount => exact distributeWinnings_grows hreenter hexec
    | distributeBatch payoutId recipients => exact distributeBatch_grows hreenter hexec

theorem perform_grows_some {depth : ℕ} (auths : List Address) (c : PayoutCall)
    (w w' : PayoutWorld N) (h : perform code depth auths c w = .ok w') : Grows [] w w' := by
  obtain ⟨nested, hn⟩ := perform_grows h
  exact ⟨_, hn⟩

/-! ## The guard -/

/-- A program fails only by trapping. -/
theorem runProgram_eq_error {p : Program N} {e : Fault PayoutError}
    (h : runProgram reenter p w = .error e) : e = .trap := by
  induction p generalizing w with
  | done net a => cases h
  | trap =>
    cases h
    rfl
  | tryCall net auths c next ih =>
    unfold runProgram at h
    split at h
    · exact ih _ _ h
    · exact ih _ _ h

theorem tokenTransfer_eq_error {e : Fault PayoutError}
    (h : tokenTransfer code reenter token recipient amount w = .error e) : e = .trap := by
  obtain hrun | ⟨r, -, hr⟩ := Fallible.bind_eq_error.mp h
  · exact runProgram_eq_error hrun
  · cases hr

/-- The guard of a distribution that the admin authorises. -/
theorem distributeWinnings_eq_alreadyPaid :
    distributeWinnings code reenter auths payoutId winner amount w = .error (.error .AlreadyPaid) ↔
      (∃ admin ∈ w.storage.admin, admin ∈ auths) ∧ 0 < amount ∧
        w.storage.isPaid payoutId = true := by
  simp only [distributeWinnings, PayoutStorage.getAdmin, PayoutStorage.getToken, tokenBalance,
    requireAuth, check, okOr, Fallible.bind_eq_error, Fallible.ensure_eq_error,
    Fallible.ensure_eq_ok, Fallible.orThrow_eq_error, Fallible.orThrow_eq_ok, reduceCtorEq,
    Fault.error.injEq, and_false, and_true, false_or, exists_const, Prod.exists]
  constructor
  · rintro ⟨admin, hadmin, hauth, hamount, hpaid | ⟨-, token, -, hrest⟩⟩
    · exact ⟨⟨admin, hadmin, hauth⟩, not_le.mp hamount, Bool.not_eq_false _ ▸ hpaid⟩
    · -- the rest of the call fails with other errors, or the token traps
      rcases hrest with hread | ⟨balance, w₁, -, -, hpay⟩
      · cases runProgram_eq_error hread
      · cases tokenTransfer_eq_error hpay
  · rintro ⟨⟨admin, hadmin, hauth⟩, hamount, hpaid⟩
    refine ⟨admin, hadmin, hauth, not_le.mpr hamount, .inl ?_⟩
    rw [hpaid]
    exact Bool.false_ne_true.symm

/-- The guard of the contract: a call of `distribute_winnings` is refused for a payment
    made before exactly if the id is paid, where the admin authorises it and the amount is
    positive. -/
theorem perform_eq_alreadyPaid {depth : ℕ} :
    perform code (depth + 1) auths (.distributeWinnings payoutId winner amount) w =
        .error (.error .AlreadyPaid) ↔
      (∃ admin ∈ w.storage.admin, admin ∈ auths) ∧ 0 < amount ∧
        w.storage.isPaid payoutId = true := by
  simp only [perform, exec, Fallible.bind_eq_error, pure, Except.pure, reduceCtorEq, and_false,
    exists_false, or_false]
  exact distributeWinnings_eq_alreadyPaid

end Calls

/-! ## Runs -/

/-- Ids are paid by the one distribution recorded for them, and tokens move for
    these only. -/
structure Paid (w : PayoutWorld N) : Prop where
  once : ∀ i, w.executed.countP (pays i) ≤ 1
  isPaid : ∀ i, w.storage.isPaid i = true ↔ ∃ e ∈ w.executed, e.payoutId = i
  moved : w.moved.Perm (w.executed.flatMap (·.payments))

theorem Paid.fresh (net : N) : Paid (.fresh net) where
  once _ := Nat.zero_le 1
  isPaid _ := iff_of_false Bool.false_ne_true (by simp [PayoutWorld.fresh])
  moved := List.Perm.refl []

theorem Paid.grows {w w' : PayoutWorld N} (hp : Paid w) (h : Grows [] w w') : Paid w' := by
  obtain ⟨l, he, hm, hi⟩ := h
  have hnone : ∀ (l : List Executed) i, l.countP (pays i) = 0 ↔ ¬ ∃ e ∈ l, e.payoutId = i := by
    intro l i
    simp [List.countP_eq_zero, pays]
  refine ⟨fun i => ?_, fun i => ?_, ?_⟩
  · rw [he, List.countP_append]
    rcases hi i with ⟨hn, -⟩ | ⟨hn, hf, -⟩
    · have := hp.once i
      omega
    · have hold : w.executed.countP (pays i) = 0 := by
        rw [hnone, ← hp.isPaid, hf]
        exact Bool.false_ne_true
      omega
  · rw [he]
    simp only [List.mem_append, or_and_right, exists_or]
    rw [← hp.isPaid]
    rcases hi i with ⟨hn, hs⟩ | ⟨hn, -, ht⟩
    · rw [hs]
      exact (or_iff_right ((hnone l i).mp hn)).symm
    · have hex : ∃ e ∈ l, e.payoutId = i := by
        by_contra hno
        have := (hnone l i).mpr hno
        omega
      exact iff_of_true ht (.inl hex)
  · apply hm.trans
    rw [List.append_nil, he, List.flatMap_append]
    exact (hp.moved.append_right _).trans List.perm_append_comm

theorem PayoutStep.paid {code : TokenCode N} {w w' : PayoutWorld N} {a : PayoutAction N}
    (hs : PayoutStep code w a w') (hp : Paid w) : Paid w' := by
  cases hs with
  | @call depth auths c =>
    cases h : perform code depth auths c w with
    | error e => exact hp
    | ok w' => exact hp.grows (perform_grows_some _ _ _ _ h)
  | @program depth p =>
    cases h : runProgram (perform code depth) (p w.net) w with
    | error e => exact hp
    | ok r => exact hp.grows (runProgram_grows perform_grows_some h)

/-- The state of the token of the contract's re-entrancy test. -/
structure ReentrantToken where
  transferCount : ℕ
  attempted : Bool
  blocked : Bool
  deriving DecidableEq, Repr

/-- Reports a large balance, and replays the payout in its first transfer. -/
def reentrantToken : TokenCode ReentrantToken where
  here := ⟨20⟩
  balance _ _ net := .done net 1000000
  transfer _ _ _ _ net :=
    let net := { net with transferCount := net.transferCount + 1 }
    if net.attempted then .done net 0
    else .tryCall { net with attempted := true } [⟨10⟩] (.distributeBatch 7 [(⟨11⟩, 100)])
      fun ok net => .done { net with blocked := !ok } 0

end InverseArena.Payout
