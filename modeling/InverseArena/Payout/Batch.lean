import InverseArena.Payout.Contract
import InverseArena.Host.Token

/-!
# A batch is paid in full or not at all

`distribute_batch` (`contract/payout/src/lib.rs`, lines 87-139) walks through the
recipients twice: once to check and to add up, with saturation, and once to pay.
The tokens here are exact ones, which call nobody back.

Results:
* `validateRecipients_eq_ok`: what the first loop accepts, and its total.
* `payRecipients_paid`: the second loop pays everybody, if the contract has the
  mathematical sum.
* `distributeBatch_all_or_nothing`: what a transaction does, and when.
-/

namespace InverseArena.Payout

open Host MachineInt KeyedMap

/-- Standard tokens, called by the payout contract at `here`. -/
def exactTokens (here : Address) : TokenCode Tokens where
  here := here
  balance token account net := .done net (net.balance token account)
  transfer token sender recipient amount net :=
    match net.transfer token sender recipient amount with
    | some net => .done net 0
    | none => .trap

/-- The sum of the amounts. -/
def batchSum (recipients : List (Address × ℤ)) : ℤ := (recipients.map (·.2)).sum

/-- What `distribute_batch` needs to pay the recipients. -/
structure Payable (here : Address) (auths : List Address) (payoutId : ℕ)
    (recipients : List (Address × ℤ)) (w : PayoutWorld Tokens) : Prop where
  admin : ∃ admin ∈ w.storage.admin, admin ∈ auths
  nonempty : 1 ≤ recipients.length
  bounded : recipients.length ≤ maxBatchSize
  positive : ∀ p ∈ recipients, 0 < p.2
  distinct : (recipients.map (·.1)).Nodup
  funded : ∃ token ∈ w.storage.token, batchSum recipients ≤ w.net.balance token here
  unpaid : w.storage.isPaid payoutId = false

/-- From `net` to `net'` each recipient has received its amount of `token` from
    `here`, and nothing else has moved. -/
structure PaidOut (here token : Address) (recipients : List (Address × ℤ))
    (net net' : Tokens) : Prop where
  received : ∀ p ∈ recipients, net'.balance token p.1 = net.balance token p.1 + p.2
  spent : net'.balance token here = net.balance token here - batchSum recipients
  others : ∀ a, a ≠ here → a ∉ recipients.map (·.1) →
    net'.balance token a = net.balance token a
  otherTokens : ∀ t, t ≠ token → net' t = net t

variable {here token recipient : Address} {auths : List Address} {payoutId : ℕ} {amount : ℤ}
  {recipients : List (Address × ℤ)} {w w' : PayoutWorld Tokens}
  {reenter : List Address → PayoutCall → PayoutWorld Tokens →
    Result PayoutError (PayoutWorld Tokens)}

/-! ## The two loops -/

/-- The first loop accepts positive amounts to distinct recipients that are not
    in `seen`. Its total is the sum of the amounts, or `i128::MAX` if that is less. -/
theorem validateRecipients_eq_ok {seen : List Address} {total totalAmount : ℤ} (h0 : 0 ≤ total) :
    validateRecipients recipients seen (min total i128Max) = .ok totalAmount ↔
      (∀ p ∈ recipients, 0 < p.2) ∧ (recipients.map (·.1)).Nodup ∧
        (∀ p ∈ recipients, p.1 ∉ seen) ∧
        totalAmount = min (total + batchSum recipients) i128Max := by
  induction recipients generalizing seen total with
  | nil =>
    simp only [validateRecipients, Fallible.pure_eq_ok]
    simp [batchSum, eq_comm]
  | cons p rest ih =>
    obtain ⟨recipient, amount⟩ := p
    have hsum : batchSum ((recipient, amount) :: rest) = amount + batchSum rest := List.sum_cons
    simp only [validateRecipients, Fallible.bind_eq_ok, check_eq_ok, exists_const, not_le,
      List.forall_mem_cons, List.map_cons, List.nodup_cons, hsum]
    constructor
    · rintro ⟨hpos, hseen, hrest⟩
      rw [satAddI128_min h0 hpos.le, ih (by omega)] at hrest
      obtain ⟨hamounts, hnodup, hnew, htotal⟩ := hrest
      refine ⟨⟨hpos, hamounts⟩, ⟨fun hmem => ?_, hnodup⟩, ⟨hseen, fun q hq => ?_⟩, ?_⟩
      · obtain ⟨q, hq, heq⟩ := List.mem_map.mp hmem
        exact hnew q hq (by simp [heq])
      · exact fun hmem => hnew q hq (List.mem_append_left _ hmem)
      · rw [htotal, add_assoc]
    · rintro ⟨⟨hpos, hamounts⟩, ⟨hnotin, hnodup⟩, ⟨hseen, hnew⟩, htotal⟩
      refine ⟨hpos, hseen, ?_⟩
      rw [satAddI128_min h0 hpos.le, ih (by omega)]
      refine ⟨hamounts, hnodup, fun q hq hmem => ?_, by rw [htotal, add_assoc]⟩
      rcases List.mem_append.mp hmem with hmem | hmem
      · exact hnew q hq hmem
      · rw [List.mem_singleton] at hmem
        exact hnotin (List.mem_map.mpr ⟨q, hq, hmem⟩)

/-- A transfer of an exact token. -/
theorem tokenTransfer_eq_ok :
    tokenTransfer (exactTokens here) reenter token recipient amount w = .ok w' ↔
      ∃ net, w.net.transfer token here recipient amount = some net ∧
        w' = { w with net := net, moved := w.moved ++ [(recipient, amount)] } := by
  unfold tokenTransfer exactTokens
  cases htr : w.net.transfer token here recipient amount with
  | none =>
    simp only [htr, runProgram, Fallible.bind_eq_ok]
    simp
  | some net =>
    simp only [htr, runProgram, Fallible.bind_eq_ok, Fallible.pure_eq_ok, Option.some.injEq,
      exists_eq_left']
    exact eq_comm

/-- One more recipient is paid before the others. -/
theorem PaidOut.cons {net net₁ net' : Tokens} (hne : recipient ≠ here)
    (hnotin : recipient ∉ recipients.map (·.1)) (hothers : ∀ p ∈ recipients, p.1 ≠ here)
    (htr : net.transfer token here recipient amount = some net₁)
    (hpaid : PaidOut here token recipients net₁ net') :
    PaidOut here token ((recipient, amount) :: recipients) net net' := by
  have hbal := fun a => Tokens.balance_transfer htr token a
  have hsum : batchSum ((recipient, amount) :: recipients) = amount + batchSum recipients :=
    List.sum_cons
  refine ⟨?_, ?_, fun a ha hnot => ?_, fun t ht => ?_⟩
  · intro p hp
    rcases List.mem_cons.mp hp with rfl | hrest
    · rw [hpaid.others _ hne hnotin, hbal, if_neg (by simp [hne]), if_pos ⟨rfl, rfl⟩, sub_zero]
    · have hp1 : p.1 ≠ recipient := fun heq => hnotin (heq ▸ List.mem_map_of_mem hrest)
      rw [hpaid.received p hrest, hbal, if_neg (by simp [hothers p hrest]),
        if_neg (by simp [hp1])]
      ring
  · rw [hpaid.spent, hbal, if_pos ⟨rfl, rfl⟩, if_neg (by simp [hne.symm]), hsum]
    ring
  · rw [List.map_cons, List.mem_cons, not_or] at hnot
    rw [hpaid.others a ha hnot.2, hbal, if_neg (by simp [ha]), if_neg (by simp [hnot.1])]
    ring
  · rw [hpaid.otherTokens t ht, (Tokens.transfer_eq_some htr).2.2.2 t ht]

/-- The second loop pays everybody, if the contract has the sum. -/
theorem payRecipients_paid (hpos : ∀ p ∈ recipients, 0 < p.2)
    (hnodup : (recipients.map (·.1)).Nodup) (hothers : ∀ p ∈ recipients, p.1 ≠ here)
    (hfunded : batchSum recipients ≤ w.net.balance token here) :
    ∃ w', payRecipients (exactTokens here) reenter token recipients w = .ok w' ∧
      w'.storage = w.storage ∧ PaidOut here token recipients w.net w'.net := by
  induction recipients generalizing w with
  | nil =>
    refine ⟨w, rfl, rfl, ?_, ?_, fun _ _ _ => rfl, fun _ _ => rfl⟩
    · exact fun p hp => by cases hp
    · exact (sub_zero _).symm
  | cons p rest ih =>
    obtain ⟨recipient, amount⟩ := p
    rw [List.forall_mem_cons] at hpos hothers
    rw [List.map_cons, List.nodup_cons] at hnodup
    have hrest : 0 ≤ batchSum rest :=
      List.sum_nonneg fun x hx => by
        obtain ⟨p, hp, rfl⟩ := List.mem_map.mp hx
        exact (hpos.2 p hp).le
    have hsum : batchSum ((recipient, amount) :: rest) = amount + batchSum rest := List.sum_cons
    rw [hsum] at hfunded
    have hamount : 0 < amount := hpos.1
    have hne : recipient ≠ here := hothers.1
    obtain ⟨net, htr⟩ : ∃ net, w.net.transfer token here recipient amount = some net :=
      Tokens.exists_transfer hamount.le (by omega)
    have hleft : batchSum rest ≤ net.balance token here := by
      rw [Tokens.balance_transfer htr, if_pos ⟨rfl, rfl⟩, if_neg (by simp [hne.symm])]
      omega
    obtain ⟨w', hw', hstorage, hpaid⟩ :=
      @ih { w with net := net, moved := w.moved ++ [(recipient, amount)] } hpos.2 hnodup.2
        hothers.2 hleft
    refine ⟨w', ?_, hstorage, hpaid.cons hne hnodup.1 hothers.2 htr⟩
    simp only [payRecipients, Fallible.bind_eq_ok]
    exact ⟨_, tokenTransfer_eq_ok.mpr ⟨net, htr, rfl⟩, hw'⟩

/-- The second loop fails if the contract has less than the sum. -/
theorem le_of_payRecipients (hothers : ∀ p ∈ recipients, p.1 ≠ here)
    (h : payRecipients (exactTokens here) reenter token recipients w = .ok w') :
    batchSum recipients ≤ w.net.balance token here := by
  induction recipients generalizing w with
  | nil => exact (w.net token).nonneg here
  | cons p rest ih =>
    obtain ⟨recipient, amount⟩ := p
    rw [List.forall_mem_cons] at hothers
    have hne : recipient ≠ here := hothers.1
    simp only [payRecipients, Fallible.bind_eq_ok] at h
    obtain ⟨w₁, htransfer, hrest⟩ := h
    obtain ⟨net, htr, rfl⟩ := tokenTransfer_eq_ok.mp htransfer
    have hleft : batchSum rest ≤ net.balance token here := ih hothers.2 hrest
    rw [Tokens.balance_transfer htr, if_pos ⟨rfl, rfl⟩, if_neg (by simp [hne.symm])] at hleft
    have hsum : batchSum ((recipient, amount) :: rest) = amount + batchSum rest := List.sum_cons
    omega

/-! ## The whole call -/

theorem tokenBalance_eq :
    tokenBalance (exactTokens here) reenter token w = .ok (w.net.balance token here, w) := rfl

/-- A batch that succeeds was payable, and has paid everybody. -/
theorem distributeBatch_paid (hothers : ∀ p ∈ recipients, p.1 ≠ here)
    (h : distributeBatch (exactTokens here) reenter auths payoutId recipients w = .ok w') :
    Payable here auths payoutId recipients w ∧ w'.storage = w.storage.markPaid payoutId ∧
      ∃ token ∈ w.storage.token, PaidOut here token recipients w.net w'.net := by
  simp only [distributeBatch, PayoutStorage.getAdmin, PayoutStorage.getToken, tokenBalance_eq,
    Fallible.bind_eq_ok, check_eq_ok, requireAuth_eq_ok, okOr_eq_ok, exists_const,
    Except.ok.injEq, exists_eq_left', not_lt] at h
  obtain ⟨admin, hadmin, hauth, hempty, hlen, total, hvalid, token, htoken, -, hunpaid, hpay⟩ := h
  obtain ⟨hpos, hnodup, -, -⟩ := (validateRecipients_eq_ok le_rfl).mp
    (by rwa [min_eq_left (by unfold i128Max; norm_num)])
  have hfunded : batchSum recipients ≤ w.net.balance token here :=
    (le_of_payRecipients hothers hpay :)
  obtain ⟨w₁, hw₁, hstorage, hpaid⟩ :=
    @payRecipients_paid _ _ _ { w with storage := w.storage.markPaid payoutId } reenter hpos hnodup
      hothers hfunded
  obtain rfl : w₁ = w' := Except.ok.inj (hw₁.symm.trans hpay)
  refine ⟨⟨⟨admin, hadmin, hauth⟩, ?_, hlen, hpos, hnodup, ⟨token, htoken, hfunded⟩, hunpaid⟩,
    hstorage, token, htoken, hpaid⟩
  cases recipients with
  | nil => cases hempty
  | cons p rest => simp

/-- A payable batch succeeds. -/
theorem exists_distributeBatch (hothers : ∀ p ∈ recipients, p.1 ≠ here)
    (h : Payable here auths payoutId recipients w) :
    ∃ w', distributeBatch (exactTokens here) reenter auths payoutId recipients w = .ok w' := by
  obtain ⟨⟨admin, hadmin, hauth⟩, hne, hlen, hpos, hnodup, ⟨token, htoken, hfunded⟩, hunpaid⟩ := h
  obtain ⟨w₁, hw₁, -, -⟩ :=
    @payRecipients_paid _ _ _ { w with storage := w.storage.markPaid payoutId } reenter hpos hnodup
      hothers hfunded
  have hempty : recipients.isEmpty = false := by
    cases recipients with
    | nil => simp at hne
    | cons p rest => rfl
  have hvalid : validateRecipients recipients [] 0 = .ok (min (0 + batchSum recipients) i128Max) := by
    have hzero : min 0 i128Max = 0 := min_eq_left (by unfold i128Max; norm_num)
    rw [← hzero]
    refine (validateRecipients_eq_ok le_rfl).mpr ⟨hpos, hnodup, fun _ _ hmem => ?_, by rw [hzero]⟩
    cases hmem
  refine ⟨w₁, ?_⟩
  simp only [distributeBatch, PayoutStorage.getAdmin, PayoutStorage.getToken, tokenBalance_eq,
    Fallible.bind_eq_ok, check_eq_ok, requireAuth_eq_ok, okOr_eq_ok, exists_const,
    Except.ok.injEq, exists_eq_left', not_lt]
  refine ⟨admin, hadmin, hauth, hempty, hlen, _, hvalid, token, htoken, ?_, hunpaid, hw₁⟩
  omega

/-- A transaction with a batch of exact tokens, to others than the contract:
    either the batch was payable, it succeeds, the id is marked and everybody is
    paid, or the batch was not payable, it fails, and nothing has changed. -/
theorem distributeBatch_all_or_nothing {depth : ℕ} (hothers : ∀ p ∈ recipients, p.1 ≠ here)
    (hs : PayoutStep (exactTokens here) w
      (.call (depth + 1) auths (.distributeBatch payoutId recipients)) w') :
    (perform (exactTokens here) (depth + 1) auths (.distributeBatch payoutId recipients) w =
        .ok w' ∧ Payable here auths payoutId recipients w ∧
        w'.storage = w.storage.markPaid payoutId ∧
        ∃ token ∈ w.storage.token, PaidOut here token recipients w.net w'.net) ∨
      ((∃ e, perform (exactTokens here) (depth + 1) auths (.distributeBatch payoutId recipients) w =
        .error e) ∧ ¬ Payable here auths payoutId recipients w ∧ w' = w) := by
  cases hs
  cases hcall : perform (exactTokens here) (depth + 1) auths (.distributeBatch payoutId recipients)
      w with
  | ok w₁ =>
    simp only [perform, exec, Fallible.bind_eq_ok, Fallible.pure_eq_ok] at hcall
    obtain ⟨w₂, hbatch, rfl⟩ := hcall
    obtain ⟨hpayable, hstorage, token, htoken, hpaid⟩ := distributeBatch_paid hothers hbatch
    exact .inl ⟨rfl, hpayable, hstorage, token, htoken, hpaid⟩
  | error e =>
    refine .inr ⟨⟨e, rfl⟩, fun hpayable => ?_, rfl⟩
    obtain ⟨w₁, hbatch⟩ : ∃ w₁, distributeBatch (exactTokens here)
        (perform (exactTokens here) depth) auths payoutId recipients w = .ok w₁ :=
      exists_distributeBatch hothers hpayable
    have hok : perform (exactTokens here) (depth + 1) auths (.distributeBatch payoutId recipients)
        w = .ok { w₁ with
          executed := (PayoutCall.distributeBatch payoutId recipients).receipt ++ w₁.executed } := by
      simp only [perform, exec, Fallible.bind_eq_ok, Fallible.pure_eq_ok]
      exact ⟨w₁, hbatch, rfl⟩
    rw [hcall] at hok
    cases hok

/-- A contract that holds 100 and pays 30 and 70. -/
theorem distributeBatch_two : ∃ w w' : PayoutWorld Tokens,
    PayoutStep (exactTokens ⟨0⟩) w
        (.call 1 [⟨1⟩] (.distributeBatch 7 [(⟨3⟩, 30), (⟨4⟩, 70)])) w' ∧
      w'.storage.isPaid 7 = true ∧ w'.net.balance ⟨2⟩ ⟨3⟩ = 30 ∧ w'.net.balance ⟨2⟩ ⟨4⟩ = 70 ∧
      w'.net.balance ⟨2⟩ ⟨0⟩ = 0 := by
  let w : PayoutWorld Tokens :=
    ⟨⟨some ⟨1⟩, some ⟨2⟩, fun _ => none⟩, fun _ => Ledger.empty.mintAll [(⟨0⟩, 100)], [], []⟩
  have hs : PayoutStep (exactTokens ⟨0⟩) w
      (.call 1 [⟨1⟩] (.distributeBatch 7 [(⟨3⟩, 30), (⟨4⟩, 70)])) _ := .call
  refine ⟨w, _, hs, ?_⟩
  rcases distributeBatch_all_or_nothing (by decide) hs with
    ⟨-, -, hstorage, token, htoken, hpaid⟩ | ⟨⟨e, he⟩, -⟩
  · cases htoken
    refine ⟨by rw [hstorage]; rfl, (hpaid.received (⟨3⟩, 30) (by decide)).trans (by decide +kernel),
      (hpaid.received (⟨4⟩, 70) (by decide)).trans (by decide +kernel),
      hpaid.spent.trans (by decide +kernel)⟩
  · cases he

end InverseArena.Payout
