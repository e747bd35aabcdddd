import InverseArena.Host.Types
import InverseArena.Library.KeyedMap
import InverseArena.Library.MachineInt

/-!
# A standard SEP-41 token

Exact transfers over `i128` balances. A ledger carries the proof that no
balance is negative and that the supply fits in an `i128`, so no transfer can
overflow its recipient.
-/

namespace InverseArena

open MachineInt KeyedMap

/-- The balances of one token contract. -/
structure Ledger where
  balance : Address → ℤ
  /-- The total supply. -/
  supply : ℤ
  nonneg : ∀ a, 0 ≤ balance a
  sum_le : ∀ S : Finset Address, ∑ a ∈ S, balance a ≤ supply
  supply_le : supply ≤ i128Max

namespace Ledger

variable {l l' : Ledger} {sender recipient : Address} {amount : ℤ}

theorem balance_le (l : Ledger) (a : Address) : l.balance a ≤ i128Max := by
  have h := l.sum_le {a}
  rw [Finset.sum_singleton] at h
  exact h.trans l.supply_le

theorem balance_add_le (l : Ledger) {a b : Address} (h : a ≠ b) :
    l.balance a + l.balance b ≤ i128Max := by
  have hs := l.sum_le {a, b}
  rw [Finset.sum_pair h] at hs
  exact hs.trans l.supply_le

theorem sum_move_le (l : Ledger) (h0 : 0 ≤ amount) (hx : amount ≤ l.balance sender)
    (S : Finset Address) : ∑ a ∈ S, move l.balance sender recipient amount a ≤ l.supply := by
  calc ∑ a ∈ S, move l.balance sender recipient amount a
      ≤ ∑ a ∈ insert sender (insert recipient S), move l.balance sender recipient amount a :=
        Finset.sum_le_sum_of_subset_of_nonneg
          (fun a ha => Finset.mem_insert_of_mem (Finset.mem_insert_of_mem ha))
          (fun a _ _ => move_nonneg l.nonneg h0 hx a)
    _ = ∑ a ∈ insert sender (insert recipient S), l.balance a :=
        sum_move _ _ (Finset.mem_insert_self _ _)
          (Finset.mem_insert_of_mem (Finset.mem_insert_self _ _))
    _ ≤ l.supply := l.sum_le _

/-- `transfer(from, to, amount)`: traps on a negative amount or a short
    balance. -/
def transfer (l : Ledger) (sender recipient : Address) (amount : ℤ) : Option Ledger :=
  if h : 0 ≤ amount ∧ amount ≤ l.balance sender then
    some { balance := move l.balance sender recipient amount
           supply := l.supply
           nonneg := move_nonneg l.nonneg h.1 h.2
           sum_le := l.sum_move_le h.1 h.2
           supply_le := l.supply_le }
  else none

theorem transfer_eq_some (h : l.transfer sender recipient amount = some l') :
    0 ≤ amount ∧ amount ≤ l.balance sender ∧
      l'.balance = move l.balance sender recipient amount := by
  unfold transfer at h
  split_ifs at h with hc
  cases h
  exact ⟨hc.1, hc.2, rfl⟩

theorem exists_transfer (h0 : 0 ≤ amount) (hx : amount ≤ l.balance sender) :
    ∃ l', l.transfer sender recipient amount = some l' := by
  unfold transfer
  rw [dif_pos ⟨h0, hx⟩]
  exact ⟨_, rfl⟩

/-- The ledger of a token nobody holds yet. -/
def empty : Ledger where
  balance := fun _ => 0
  supply := 0
  nonneg := fun _ => le_rfl
  sum_le := fun _ => by simp
  supply_le := by unfold i128Max; norm_num

theorem sum_update_le (l : Ledger) (h0 : 0 ≤ amount) (a : Address) (S : Finset Address) :
    ∑ b ∈ S, Function.update l.balance a (l.balance a + amount) b ≤ l.supply + amount := by
  by_cases ha : a ∈ S
  · have h := l.sum_le S
    rw [← Finset.add_sum_erase _ _ ha] at h
    rw [Finset.sum_update_of_mem ha, Finset.sdiff_singleton_eq_erase]
    omega
  · rw [Finset.sum_update_of_notMem ha]
    have h := l.sum_le S
    omega

/-- `mint(to, amount)`, by the issuer. -/
def mint (l : Ledger) (recipient : Address) (amount : ℤ) : Option Ledger :=
  if h : 0 ≤ amount ∧ l.supply + amount ≤ i128Max then
    some { balance := Function.update l.balance recipient (l.balance recipient + amount)
           supply := l.supply + amount
           nonneg := fun a => by
             by_cases ha : a = recipient
             · subst ha; have := l.nonneg a; simp; omega
             · rw [Function.update_of_ne ha]; exact l.nonneg a
           sum_le := l.sum_update_le h.1 recipient
           supply_le := h.2 }
  else none

theorem mint_eq_some (h : l.mint recipient amount = some l') :
    0 ≤ amount ∧
      l'.balance = Function.update l.balance recipient (l.balance recipient + amount) := by
  unfold mint at h
  split_ifs at h with hc
  cases h
  exact ⟨hc.1, rfl⟩

/-- The ledger after minting to each account of a list in turn; a mint that
    would exceed the supply bound is skipped. -/
def mintAll (l : Ledger) : List (Address × ℤ) → Ledger
  | [] => l
  | (a, x) :: rest => ((l.mint a x).getD l).mintAll rest

end Ledger

/-- The token contracts of the network, by address. -/
abbrev Tokens := Address → Ledger

/-- `TokenClient::new(env, token).transfer(from, to, amount)`. -/
def Tokens.transfer (tokens : Tokens) (token sender recipient : Address) (amount : ℤ) :
    Option Tokens :=
  ((tokens token).transfer sender recipient amount).map (Function.update tokens token)

/-- `TokenClient::new(env, token).balance(a)`. -/
def Tokens.balance (tokens : Tokens) (token a : Address) : ℤ := (tokens token).balance a

theorem Tokens.transfer_eq_some {tokens tokens' : Tokens} {token sender recipient : Address}
    {amount : ℤ} (h : tokens.transfer token sender recipient amount = some tokens') :
    0 ≤ amount ∧ amount ≤ tokens.balance token sender ∧
      (∀ a, tokens'.balance token a = move (tokens.balance token) sender recipient amount a) ∧
      ∀ t, t ≠ token → tokens' t = tokens t := by
  obtain ⟨l', hl, rfl⟩ := Option.map_eq_some_iff.mp h
  obtain ⟨h0, hx, hb⟩ := Ledger.transfer_eq_some hl
  refine ⟨h0, hx, fun a => ?_, fun t ht => Function.update_of_ne ht _ _⟩
  unfold Tokens.balance
  rw [Function.update_self, hb]

theorem Tokens.exists_transfer {tokens : Tokens} {token sender recipient : Address} {amount : ℤ}
    (h0 : 0 ≤ amount) (hx : amount ≤ tokens.balance token sender) :
    ∃ tokens', tokens.transfer token sender recipient amount = some tokens' := by
  obtain ⟨l', hl⟩ : ∃ l', (tokens token).transfer sender recipient amount = some l' :=
    Ledger.exists_transfer h0 hx
  exact ⟨_, by unfold Tokens.transfer; rw [hl]; rfl⟩

/-- The balances before and after a transfer. -/
theorem Tokens.balance_transfer {t t' : Tokens} {token sender recipient : Address} {amount : ℤ}
    (h : t.transfer token sender recipient amount = some t') (u here : Address) :
    t'.balance u here = t.balance u here
      - (if u = token ∧ here = sender then amount else 0)
      + (if u = token ∧ here = recipient then amount else 0) := by
  obtain ⟨-, -, hmove, hother⟩ := Tokens.transfer_eq_some h
  by_cases hu : u = token
  · subst hu
    rw [hmove, move_apply]
    simp
  · have hsame : t'.balance u here = t.balance u here := by
      unfold Tokens.balance
      rw [hother u hu]
    simp [hu, hsame]

end InverseArena
