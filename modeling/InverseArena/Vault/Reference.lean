import InverseArena.Arena.Replay
import InverseArena.Host.Token
import InverseArena.Vault.Honest

/-!
# A reference vault

An honest vault that one can run: it keeps one token ledger and the arena's
position, and may be out of order for a while. It shows that the laws of
`HonestVault` are those of an actual vault, and lets runs be executed.

Results:
* `referenceVault`, `referenceVault_reliable`: the reference environment has
  an honest vault, reliable when it has no outages.
* `Change.grow`, `Change.outage`: what can happen to it.
-/

namespace InverseArena.Arena

open MachineInt KeyedMap

/-- The token ledger and the arena's position at the vault of address 2, which
    backs it. -/
structure VaultState where
  ledger : Ledger
  position : ℤ
  /-- The vault's calls fail for the time being. -/
  down : Bool
  position_nonneg : 0 ≤ position
  backed : position ≤ ledger.balance ⟨2⟩

namespace VaultState

/-- Nobody holds anything but the given accounts. -/
def init (accounts : List (Address × ℤ)) : VaultState :=
  ⟨Ledger.empty.mintAll accounts, 0, false, le_rfl, (Ledger.empty.mintAll accounts).nonneg _⟩

/-- Accounts 11 and 12 hold 100 each. -/
def sample : VaultState := init [(⟨11⟩, 100), (⟨12⟩, 100)]

theorem transfer_balance {l l' : Ledger} {sender recipient : Address} {amount : ℤ}
    (h : l.transfer sender recipient amount = some l') (hs : sender ≠ ⟨2⟩) :
    l.balance ⟨2⟩ ≤ l'.balance ⟨2⟩ := by
  obtain ⟨h0, -, hb⟩ := Ledger.transfer_eq_some h
  rw [hb, move_apply, if_neg hs.symm]
  split_ifs <;> omega

/-- A token transfer by someone other than the vault. -/
def transfer (sender recipient : Address) (amount : ℤ) (h : VaultState) : Option VaultState :=
  if hs : sender = ⟨2⟩ then none
  else match hl : h.ledger.transfer sender recipient amount with
    | none => none
    | some l => some ⟨l, h.position, h.down, h.position_nonneg,
        h.backed.trans (transfer_balance hl hs)⟩

/-- `deposit`: pulls the amount from the arena (address 0). -/
def deposit (amount : ℤ) (h : VaultState) : Option VaultState :=
  match hl : h.ledger.transfer ⟨0⟩ ⟨2⟩ amount with
  | none => none
  | some l => some ⟨l, h.position + amount, h.down,
      add_nonneg h.position_nonneg (Ledger.transfer_eq_some hl).1, by
        obtain ⟨-, -, hb⟩ := Ledger.transfer_eq_some hl
        have := h.backed
        rw [hb, move_apply, if_neg (by decide), if_pos rfl]
        omega⟩

/-- `withdraw_all`: pays out the whole position. -/
def withdrawAll (h : VaultState) : Option (ℤ × VaultState) :=
  match h.ledger.transfer ⟨2⟩ ⟨0⟩ h.position with
  | none => none
  | some l => some (h.position, ⟨l, 0, h.down, le_rfl, l.nonneg _⟩)

/-- The vault earns `x` for the arena. -/
def grow (x : ℤ) (h : VaultState) : Option VaultState :=
  match hl : h.ledger.mint ⟨2⟩ x with
  | none => none
  | some l => some ⟨l, h.position + x, h.down,
      add_nonneg h.position_nonneg (Ledger.mint_eq_some hl).1, by
        obtain ⟨-, hb⟩ := Ledger.mint_eq_some hl
        have := h.backed
        rw [hb, Function.update_self]
        omega⟩

/-- The vault stops or resumes answering. -/
def outage (down : Bool) (h : VaultState) : VaultState :=
  ⟨h.ledger, h.position, down, h.position_nonneg, h.backed⟩

end VaultState

/-- The reference environment: arena 0, token 1, vault 2, oracle 3 (which
    answers 500), accounts from 10 on, one uploaded code. With `flaky` the vault's
    calls fail while it is down. -/
def reference (flaky : Bool) : Env VaultState where
  here := ⟨0⟩
  mayAuthorize a := 10 ≤ a.id
  evolves _ h h' := h.position ≤ h'.position ∧ h.ledger.balance ⟨0⟩ ≤ h'.ledger.balance ⟨0⟩
  sha256 := sha256OfZeroSalt
  transfer _ _ sender recipient amount h := h.transfer sender recipient amount
  deposit _ _ _ amount h := if flaky ∧ h.down then none else h.deposit amount
  withdrawAll _ _ _ h := if flaky ∧ h.down then none else h.withdrawAll
  balanceOf _ _ _ h := if flaky ∧ h.down then none else some (h.position, h)
  getCurrentYieldBps _ _ h := some (500, h)
  uploaded wasmHash _ := wasmHash = Vector.replicate 32 7

instance (flaky : Bool) : DecidablePred (reference flaky).mayAuthorize :=
  fun a => inferInstanceAs (Decidable (10 ≤ a.id))

namespace VaultState

theorem transfer_eq_some {sender recipient : Address} {amount : ℤ} {h h' : VaultState}
    (ht : h.transfer sender recipient amount = some h') :
    h'.position = h.position ∧ 0 ≤ amount ∧ amount ≤ h.ledger.balance sender ∧
      h'.ledger.balance = move h.ledger.balance sender recipient amount := by
  unfold transfer at ht
  split_ifs at ht
  split at ht
  · cases ht
  · rename_i l hl
    cases ht
    exact ⟨rfl, Ledger.transfer_eq_some hl⟩

theorem exists_transfer {recipient : Address} {amount : ℤ} {h : VaultState} (h0 : 0 ≤ amount)
    (hx : amount ≤ h.ledger.balance ⟨0⟩) : ∃ h', h.transfer ⟨0⟩ recipient amount = some h' := by
  obtain ⟨l, hl⟩ := @Ledger.exists_transfer h.ledger ⟨0⟩ recipient amount h0 hx
  unfold transfer
  rw [dif_neg (by decide)]
  split
  · rename_i hnone
    rw [hl] at hnone
    cases hnone
  · exact ⟨_, rfl⟩

theorem deposit_eq_some {amount : ℤ} {h h' : VaultState} (hd : h.deposit amount = some h') :
    h'.position = h.position + amount ∧
      h'.ledger.balance = move h.ledger.balance ⟨0⟩ ⟨2⟩ amount := by
  unfold deposit at hd
  split at hd
  · cases hd
  · rename_i l hl
    cases hd
    exact ⟨rfl, (Ledger.transfer_eq_some hl).2.2⟩

theorem withdrawAll_eq_some {x : ℤ} {h h' : VaultState} (hw : h.withdrawAll = some (x, h')) :
    x = h.position ∧ h'.position = 0 ∧
      h'.ledger.balance = move h.ledger.balance ⟨2⟩ ⟨0⟩ h.position := by
  unfold withdrawAll at hw
  split at hw
  · cases hw
  · rename_i l hl
    cases hw
    exact ⟨rfl, rfl, (Ledger.transfer_eq_some hl).2.2⟩

theorem exists_withdrawAll (h : VaultState) : ∃ r, h.withdrawAll = some r := by
  obtain ⟨l, hl⟩ := @Ledger.exists_transfer h.ledger ⟨2⟩ ⟨0⟩ h.position h.position_nonneg h.backed
  unfold withdrawAll
  rw [hl]
  exact ⟨_, rfl⟩

theorem exists_grow {x : ℤ} {h : VaultState} (h0 : 0 ≤ x)
    (hx : h.ledger.supply + x ≤ i128Max) : ∃ h', h.grow x = some h' ∧
      h'.position = h.position + x ∧ h'.ledger.supply = h.ledger.supply + x := by
  obtain ⟨l, hl, hs⟩ : ∃ l, h.ledger.mint ⟨2⟩ x = some l ∧ l.supply = h.ledger.supply + x := by
    unfold Ledger.mint
    rw [dif_pos ⟨h0, hx⟩]
    exact ⟨_, rfl, rfl⟩
  unfold VaultState.grow
  split
  · rename_i hnone
    rw [hl] at hnone
    cases hnone
  · rename_i l' hl'
    obtain rfl := Option.some.inj (hl.symm.trans hl')
    exact ⟨_, rfl, rfl, hs⟩

end VaultState

/-- The vault of the reference environment is honest. -/
def referenceVault (flaky : Bool) : HonestVault (reference flaky) ⟨1⟩ ⟨2⟩ where
  balance h := h.ledger.balance
  position := VaultState.position
  balance_nonneg h := h.ledger.nonneg _
  position_nonneg := VaultState.position_nonneg
  supply h := by
    have hsum := @Ledger.balance_add_le h.ledger ⟨0⟩ ⟨2⟩ (by decide)
    have hback := h.backed
    change h.ledger.balance ⟨0⟩ + h.position ≤ i128Max
    omega
  unauthorized := by
    change ¬ (10 ≤ 0)
    omega
  transfer_spec ht := by
    obtain ⟨hpos, h0, hx, hb⟩ := VaultState.transfer_eq_some ht
    refine ⟨hpos, fun hs hr => ⟨h0, ?_, ?_⟩, fun hs hr => ?_⟩
    · rw [hs] at hx; exact hx
    · rw [hb, move_apply, if_pos hs.symm, if_neg hr.symm]; omega
    · rw [hb, move_apply, if_neg hs.symm, if_pos hr.symm]; omega
  deposit_spec hd := by
    change (if _ then none else VaultState.deposit _ _) = some _ at hd
    split_ifs at hd
    obtain ⟨hpos, hb⟩ := VaultState.deposit_eq_some hd
    have hhere : (reference flaky).here = ⟨0⟩ := rfl
    refine ⟨hpos, ?_⟩
    rw [hhere, hb, move_apply, if_pos rfl, if_neg (by decide)]
    omega
  withdrawAll_spec hw := by
    change (if _ then none else VaultState.withdrawAll _) = some _ at hw
    split_ifs at hw
    obtain ⟨hx, hpos, hb⟩ := VaultState.withdrawAll_eq_some hw
    have hhere : (reference flaky).here = ⟨0⟩ := rfl
    refine ⟨hx, hpos, ?_⟩
    rw [hhere, hb, move_apply, if_neg (by decide), if_pos rfl]
    omega
  balanceOf_spec hb := by
    change (if _ then none else some (VaultState.position _, _)) = some _ at hb
    split_ifs at hb
    cases hb
    exact ⟨rfl, rfl, rfl⟩
  oracle_spec ho := by
    cases ho
    exact ⟨rfl, rfl⟩
  evolves_spec he := he

theorem referenceVault_pays (flaky : Bool) : (referenceVault flaky).Pays :=
  fun _ _ _ _ h0 hx => VaultState.exists_transfer h0 hx

/-- Without outages the reference vault is reliable. -/
theorem referenceVault_reliable : (referenceVault false).Reliable where
  pays := referenceVault_pays false
  withdraws _ h := h.exists_withdrawAll
  answers _ h := ⟨(h.position, h), rfl⟩

/-! ## What happens to the reference vault -/

/-- The vault earns `x` for the arena. -/
def Change.grow {flaky : Bool} (x : ℤ) : Change (reference flaky) where
  apply h := h.grow x
  evolves {_ h h'} hg := by
    unfold VaultState.grow at hg
    split at hg
    · cases hg
    · rename_i l hl
      obtain ⟨h0, hb⟩ := Ledger.mint_eq_some hl
      cases hg
      refine ⟨by dsimp only; omega, ?_⟩
      show h.ledger.balance ⟨0⟩ ≤ l.balance ⟨0⟩
      rw [hb, Function.update_of_ne (by decide)]

/-- The vault stops or resumes answering. -/
def Change.outage {flaky : Bool} (down : Bool) : Change (reference flaky) where
  apply h := some (h.outage down)
  evolves ho := by
    cases ho
    exact ⟨le_rfl, le_rfl⟩

end InverseArena.Arena
