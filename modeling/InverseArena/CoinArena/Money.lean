import InverseArena.CoinArena.Replay

/-!
# Money of the coin arena

The arena's transfers, as it has recorded them, against the balances of
standard tokens.

Results:
* `ExactTokens.balance`: what a transfer of the arena does to its balance.
* `ExactTokens.exists_transfer`: covered transfers succeed.
* `received`, `spent`, `paidBy`: the sums of the transfers recorded.
-/

namespace InverseArena.CoinArena

open KeyedMap

variable {G H : Type}

/-- The token contracts are standard ones, nothing that happens between two
    calls takes tokens from the arena, and the arena itself authorizes no call. -/
structure ExactTokens (env : Env G H) (tokens : H → Tokens) : Prop where
  transfer : ∀ now token sender recipient amount h,
    (env.transfer now token sender recipient amount h).map tokens =
      (tokens h).transfer token sender recipient amount
  evolves : ∀ {now h h'}, env.evolves now h h' →
    ∀ token, (tokens h).balance token env.here ≤ (tokens h').balance token env.here
  here : ¬ env.mayAuthorize env.here

section Balances

variable {env : Env G H} {tokens : H → Tokens} {now : ℕ} {token sender recipient : Address}
  {amount : ℤ} {h h' : H}

theorem ExactTokens.transfer_eq_some (htok : ExactTokens env tokens)
    (ht : env.transfer now token sender recipient amount h = some h') :
    (tokens h).transfer token sender recipient amount = some (tokens h') := by
  rw [← htok.transfer now, ht]
  rfl

/-- What a transfer does to the balance of the arena, and what it needs. -/
theorem ExactTokens.balance (htok : ExactTokens env tokens)
    (ht : env.transfer now token sender recipient amount h = some h') (t : Address) :
    0 ≤ amount ∧ amount ≤ (tokens h).balance token sender ∧
      (tokens h').balance t env.here = (tokens h).balance t env.here
        - (if t = token ∧ env.here = sender then amount else 0)
        + (if t = token ∧ env.here = recipient then amount else 0) := by
  have hs := htok.transfer_eq_some ht
  obtain ⟨h0, hle, -⟩ := Tokens.transfer_eq_some hs
  exact ⟨h0, hle, Tokens.balance_transfer hs t env.here⟩

theorem ExactTokens.exists_transfer (htok : ExactTokens env tokens) (h0 : 0 ≤ amount)
    (hle : amount ≤ (tokens h).balance token sender) :
    ∃ h', env.transfer now token sender recipient amount h = some h' := by
  obtain ⟨ts, hts⟩ : ∃ ts, (tokens h).transfer token sender recipient amount = some ts :=
    Tokens.exists_transfer h0 hle
  rw [← htok.transfer now] at hts
  obtain ⟨h', ht, -⟩ := Option.map_eq_some_iff.mp hts
  exact ⟨h', ht⟩

end Balances

theorem exactTokens_sampleEnv : ExactTokens sampleEnv id where
  transfer _ _ _ _ _ _ := congrFun Option.map_id _
  evolves heq token := by cases heq; exact le_rfl
  here := by decide

/-! ## Sums of transfers -/

/-- The amounts of the transfers that satisfy `p`, added up. -/
def sumOf (p : Transfer → Bool) (l : List Transfer) : ℤ := ((l.filter p).map (·.amount)).sum

/-- What `a` has received. -/
def received (a : Address) : List Transfer → ℤ := sumOf fun x => x.recipient = a

/-- What `a` has spent. -/
def spent (a : Address) : List Transfer → ℤ := sumOf fun x => x.sender = a

/-- What `p` has paid to `a`. -/
def paidBy (a p : Address) : List Transfer → ℤ := sumOf fun x => x.sender = p ∧ x.recipient = a

theorem sumOf_snoc (p : Transfer → Bool) (l : List Transfer) (x : Transfer) :
    sumOf p (l ++ [x]) = sumOf p l + if p x then x.amount else 0 := by
  unfold sumOf
  rw [List.filter_append, List.map_append, List.sum_append]
  congr 1
  by_cases hx : p x = true
  · simp [hx]
  · simp [hx]

/-- A payment to the arena, by somebody else. -/
theorem sums_of_payment {here p : Address} (hp : p ≠ here) (token : Address) (amount : ℤ)
    (l : List Transfer) :
    received here (l ++ [⟨token, p, here, amount⟩]) = received here l + amount ∧
      spent here (l ++ [⟨token, p, here, amount⟩]) = spent here l ∧
      ∀ q, paidBy here q (l ++ [⟨token, p, here, amount⟩]) =
        paidBy here q l + if p = q then amount else 0 := by
  unfold received spent paidBy
  simp only [sumOf_snoc, hp, decide_true, decide_false, if_true, Bool.false_eq_true, if_false,
    add_zero, and_true, decide_eq_true_eq]
  exact ⟨trivial, trivial, fun _ => trivial⟩

/-- A payment by the arena, to somebody else. -/
theorem sums_of_payout {here p : Address} (hp : p ≠ here) (token : Address) (amount : ℤ)
    (l : List Transfer) :
    received here (l ++ [⟨token, here, p, amount⟩]) = received here l ∧
      spent here (l ++ [⟨token, here, p, amount⟩]) = spent here l + amount ∧
      ∀ q, paidBy here q (l ++ [⟨token, here, p, amount⟩]) = paidBy here q l := by
  unfold received spent paidBy
  simp only [sumOf_snoc, hp, decide_true, decide_false, if_true, Bool.false_eq_true, if_false,
    add_zero, and_false]
  exact ⟨trivial, trivial, fun _ => trivial⟩

end InverseArena.CoinArena
