import InverseArena.RwaAdapter.Books

/-!
# What the adapter quotes and what it pays

`withdraw_all` and `balance_of` both write out the yield formula
(`contract/rwa-adapter/src/lib.rs`, lines 71-84 and 128-139). Where the base
yield overflows, the first fails and the second counts no yield; where the
accrued yield overflows, both count none.

Results:
* `quote_mono_iff`: which principals have a quote that never falls.
* `quoteHolds_iff`: which positions are paid what they are quoted, at all times.
* `quotes_hold_iff`: all positions are, all along exactly the runs whose
  deposits leave such a principal behind.
* `not_quotes_hold`: a funded run in which a quote is refused.
-/

namespace InverseArena.RwaAdapter

open MachineInt Host KeyedMap Transition

/-! ## The quote -/

/-- Lines 128-139 of `balance_of`: the worth of a principal at time `now`. -/
def quote (principal : ℤ) (now : ℕ) : ℤ :=
  (checkedAddI128 principal (accrued ((baseYield principal).getD 0) now)).getD 0

theorem balanceOf_eq (now : ℕ) (user : Address) (h : RwaState) :
    balanceOf now user h =
      if h.storage.config.isSome = true ∧ withdrawnOf h.storage user = false then
        quote (principalOf h.storage user) now
      else 0 := by
  unfold balanceOf quote principalOf withdrawnOf
  cases h.storage.config with
  | none => simp
  | some config =>
    cases hw : (h.storage.loadPosition user).withdrawn with
    | false => simp [hw]
    | true => simp [hw]

/-- The principals that are quoted what they are paid: either the yearly yield
    of 5%, rounded down, fits in an `i128` for `u64::MAX` seconds, or the
    principal is no deposit but what is left of sums that wrapped around. -/
def QuoteFits (principal : ℤ) : Prop :=
  principal * yieldBpsPerYear < i128Min ∨ -20 < principal ∧ principal / 20 * u64Max ≤ i128Max

instance (principal : ℤ) : Decidable (QuoteFits principal) :=
  inferInstanceAs (Decidable (_ ∨ _))

theorem quoteFits_zero : QuoteFits 0 := by decide +kernel

variable {principal base : ℤ} {now : ℕ}

theorem baseYield_of_mem (h1 : i128Min ≤ principal * 500) (h2 : principal * 500 ≤ i128Max) :
    baseYield principal = some (principal.tdiv 20) := by
  unfold baseYield checkedMulI128 yieldBpsPerYear
  rw [checkedI128_of_mem h1 h2, Option.bind_some, checkedDivI128_of_mem h1 h2 (by norm_num)]
  exact congrArg some (Int.mul_tdiv_mul_of_pos_left principal 20 (by norm_num : (0 : ℤ) < 500))

theorem baseYield_of_low (h : principal * 500 < i128Min) : baseYield principal = none := by
  unfold baseYield checkedMulI128 yieldBpsPerYear
  rw [checkedI128_eq_none_of_lt h]
  rfl

theorem accrued_of_mem (h1 : i128Min ≤ base * now) (h2 : base * now ≤ i128Max) :
    accrued base now = (base * now).tdiv secondsPerYear := by
  unfold accrued checkedMulI128
  rw [checkedI128_of_mem h1 h2, Option.bind_some,
    checkedDivI128_of_mem h1 h2 (by unfold secondsPerYear; norm_num)]
  rfl

theorem accrued_zero (now : ℕ) : accrued 0 now = 0 := by
  rw [accrued_eq le_rfl]; simp

/-- A base yield of zero, rounded down or not computed, adds nothing. -/
theorem quote_of_base_zero (hb : (baseYield principal).getD 0 = 0) (h1 : i128Min ≤ principal)
    (h2 : principal ≤ i128Max) (now : ℕ) : quote principal now = principal := by
  unfold quote checkedAddI128
  rw [hb, accrued_zero, add_zero, checkedI128_of_mem h1 h2]
  rfl

/-- A principal whose base yield can be computed. -/
theorem quote_of_nonneg (h0 : 0 ≤ principal) (h : principal * 500 ≤ i128Max) (now : ℕ) :
    quote principal now = principal + accrued (principal / 20) now := by
  have hbounds := accrued_bounds (Int.ediv_nonneg h0 (by norm_num : (0 : ℤ) ≤ 20)) now
  unfold quote checkedAddI128
  rw [baseYield_of_mem (by unfold i128Min; omega) h, Option.getD_some,
    Int.tdiv_eq_ediv_of_nonneg h0,
    checkedI128_of_mem (by unfold i128Min; omega) (by unfold i128Max at h hbounds ⊢; omega)]
  rfl

theorem accrued_mono {t t' : ℕ} (h0 : 0 ≤ base) (h : t ≤ t') (hfit : base * t' ≤ i128Max) :
    accrued base t ≤ accrued base t' := by
  have hle : base * t ≤ base * t' := by gcongr
  rw [accrued_eq h0, accrued_eq h0, if_pos (hle.trans hfit), if_pos hfit]
  exact Int.ediv_le_ediv (by unfold secondsPerYear; norm_num) hle

/-- The yield of a base that overflows in time is lost when it does: up to the
    last moment before it had grown by more than one unit. -/
theorem exists_accrued_lost (h0 : 0 < base) (hle : base * 20 ≤ i128Max)
    (hbig : i128Max < base * u64Max) :
    ∃ t ≤ u64Max, accrued base u64Max < accrued base t := by
  have hm : (0 : ℤ) ≤ i128Max := by unfold i128Max; norm_num
  obtain ⟨t, ht⟩ := Int.eq_ofNat_of_zero_le (Int.ediv_nonneg hm h0.le)
  have hlow : base * t ≤ i128Max := by rw [← ht]; exact Int.mul_ediv_self_le h0.ne'
  have hhigh : i128Max < base * t + base := by
    have := Int.lt_mul_ediv_self_add (x := i128Max) h0
    rwa [ht] at this
  refine ⟨t, ?_, ?_⟩
  · by_contra hlt
    have hmul : base * u64Max ≤ base * t := by gcongr; omega
    omega
  · rw [accrued_eq h0.le, accrued_eq h0.le, if_neg (by omega), if_pos hlow]
    unfold secondsPerYear
    unfold i128Max at hle hhigh
    omega

/-- Of a negative base the yield is a loss at some time. -/
theorem exists_accrued_loss (h0 : 0 < base) (hle : base * 10000 ≤ 2 ^ 127) :
    ∃ t ≤ u64Max, accrued (-base) t < 0 ∧ i128Min ≤ accrued (-base) t * 10000 := by
  have hq : 0 ≤ secondsPerYear / base :=
    Int.ediv_nonneg (by unfold secondsPerYear; norm_num) h0.le
  have hself : secondsPerYear / base ≤ secondsPerYear :=
    Int.ediv_le_self _ (by unfold secondsPerYear; norm_num)
  obtain ⟨n, hn⟩ := Int.eq_ofNat_of_zero_le hq
  have hlow : base * n ≤ secondsPerYear := by rw [← hn]; exact Int.mul_ediv_self_le h0.ne'
  have hhigh : secondsPerYear < base * n + base := by
    have := Int.lt_mul_ediv_self_add (x := secondsPerYear) h0
    rwa [hn] at this
  have hmul : -base * ((n + 1 : ℕ) : ℤ) = -(base * n + base) := by push_cast; ring
  have hloss : accrued (-base) (n + 1) = -((base * n + base) / secondsPerYear) := by
    unfold secondsPerYear at hlow
    rw [accrued_of_mem (by rw [hmul]; unfold i128Min; omega)
      (by rw [hmul]; unfold i128Max; omega), hmul, Int.neg_tdiv,
      Int.tdiv_eq_ediv_of_nonneg (by omega)]
  refine ⟨n + 1, ?_, ?_⟩
  · unfold secondsPerYear at hn hself
    unfold u64Max
    omega
  · rw [hloss]
    unfold secondsPerYear at hlow hhigh ⊢
    unfold i128Min
    omega

/-! ## When the quote never falls -/

theorem quoteFits_of_nonneg (h0 : 0 ≤ principal) :
    QuoteFits principal ↔ principal / 20 * u64Max ≤ i128Max := by
  unfold QuoteFits yieldBpsPerYear i128Min
  constructor
  · rintro (h | ⟨-, h⟩)
    · omega
    · exact h
  · exact fun h => .inr ⟨by omega, h⟩

/-- What the quote of such a principal earns does not overflow. -/
theorem QuoteFits.base_le (h : QuoteFits principal) (h0 : 0 ≤ principal) :
    principal * 500 ≤ i128Max := by
  have hle := (quoteFits_of_nonneg h0).mp h
  unfold u64Max i128Max at *
  omega

/-- A principal that has wrapped around to a small negative number, or to one
    whose base yield underflows, earns nothing. -/
theorem base_eq_zero (h : principal * 500 < i128Min ∨ -20 < principal ∧ principal < 20) :
    (baseYield principal).getD 0 = 0 := by
  rcases h with h | ⟨hlow, hhigh⟩
  · rw [baseYield_of_low h]; rfl
  · rw [baseYield_of_mem (by unfold i128Min; omega) (by unfold i128Max; omega), Option.getD_some,
      ← Int.natAbs_eq_zero, Int.natAbs_tdiv]
    exact Nat.div_eq_of_lt (by omega)

/-- A larger negative principal earns losses. -/
theorem exists_quote_falls (h1 : i128Min ≤ principal * 500) (h2 : principal ≤ -20) :
    ∃ t ≤ u64Max, quote principal t < quote principal 0 := by
  have hbase : (baseYield principal).getD 0 = -(-principal / 20) := by
    rw [baseYield_of_mem h1 (by unfold i128Max; omega), Option.getD_some,
      ← Int.tdiv_eq_ediv_of_nonneg (by omega), Int.neg_tdiv, neg_neg]
  have hle : -principal / 20 * 10000 ≤ 2 ^ 127 := by unfold i128Min at h1; omega
  obtain ⟨t, ht, hneg, hmin⟩ := exists_accrued_loss (by omega) hle
  have hzero : accrued (-(-principal / 20)) 0 = 0 := by
    rw [accrued_of_mem (by simp [i128Min]) (by simp [i128Max])]
    simp
  refine ⟨t, ht, ?_⟩
  unfold quote checkedAddI128
  rw [hbase, hzero, checkedI128_of_mem (by unfold i128Min at *; omega) (by unfold i128Max; omega),
    checkedI128_of_mem (by unfold i128Min at *; omega) (by unfold i128Max; omega)]
  simp only [Option.getD_some]
  omega

/-- The principals whose quote never falls, among those whose base yield does
    not overflow. -/
theorem quote_mono_iff (h1 : i128Min ≤ principal) (h2 : principal * 500 ≤ i128Max) :
    (∀ t t' : ℕ, t ≤ t' → t' ≤ u64Max → quote principal t ≤ quote principal t') ↔
      QuoteFits principal := by
  have hmax : principal ≤ i128Max := by unfold i128Max at *; omega
  by_cases hzero : principal * 500 < i128Min ∨ -20 < principal ∧ principal < 20
  · refine iff_of_true (fun t t' _ _ => ?_) ?_
    · rw [quote_of_base_zero (base_eq_zero hzero) h1 hmax,
        quote_of_base_zero (base_eq_zero hzero) h1 hmax]
    · refine hzero.imp id fun h => ⟨h.1, ?_⟩
      unfold u64Max i128Max
      omega
  · rw [not_or, not_lt] at hzero
    rcases le_or_gt 0 principal with h0 | h0
    · rw [quoteFits_of_nonneg h0]
      have hb : 0 ≤ principal / 20 := by omega
      constructor
      · intro hmono
        by_contra hbig
        obtain ⟨t, ht, hlost⟩ : ∃ t ≤ u64Max,
            accrued (principal / 20) u64Max < accrued (principal / 20) t :=
          exists_accrued_lost (by omega) (by omega) (by omega)
        have hle := hmono t u64Max ht le_rfl
        rw [quote_of_nonneg h0 h2, quote_of_nonneg h0 h2] at hle
        omega
      · intro hfit t t' ht ht'
        have hmono : accrued (principal / 20) t ≤ accrued (principal / 20) t' := by
          refine accrued_mono hb ht (le_trans ?_ hfit)
          gcongr
        rw [quote_of_nonneg h0 h2, quote_of_nonneg h0 h2]
        omega
    · refine iff_of_false (fun hmono => ?_) ?_
      · obtain ⟨t, ht, hfall⟩ := exists_quote_falls hzero.1 (by omega)
        have hle := hmono 0 t (Nat.zero_le t) ht
        omega
      · unfold QuoteFits yieldBpsPerYear
        omega

/-! ## When the quote is paid -/

/-- What `balance_of` tells `user`: the adapter pays the balance, if it has the
    tokens, and the balance never falls while the position is not touched. -/
structure QuoteHolds (here : Address) (h : RwaState) (user : Address) : Prop where
  paid : ∀ {now : ℕ} {auths : List Address} {tokens : Tokens}, now ≤ u64Max → user ∈ auths →
    0 < balanceOf now user h →
    (∀ config ∈ h.storage.config, balanceOf now user h ≤ tokens.balance config.stakeToken here) →
    ∃ h', withdrawAll here now auths user { h with tokens := tokens } =
      .ok (balanceOf now user h, h')
  grows : ∀ {t t' : ℕ}, t ≤ t' → t' ≤ u64Max → balanceOf t user h ≤ balanceOf t' user h

section Paid

variable {here user : Address} {h : RwaState} {config : RwaConfig} {auths : List Address}

theorem quote_pos (h1 : i128Min ≤ principal) (hfit : QuoteFits principal)
    (hpos : 0 < quote principal now) : 0 < principal := by
  by_contra hneg
  have hzero : principal * 500 < i128Min ∨ -20 < principal ∧ principal < 20 :=
    hfit.imp id fun h => ⟨h.1, by omega⟩
  rw [quote_of_base_zero (base_eq_zero hzero) h1 (by unfold i128Max; omega)] at hpos
  exact hneg hpos

/-- A position whose base yield does not overflow is paid its quote. -/
theorem exists_withdrawAll (hc : h.storage.config = some config)
    (hflag : withdrawnOf h.storage user = false) (hpos : 0 < principalOf h.storage user)
    (hbase : principalOf h.storage user * 500 ≤ i128Max) (hauth : user ∈ auths)
    (hfunds : quote (principalOf h.storage user) now ≤
      h.tokens.balance config.stakeToken here) :
    ∃ h', withdrawAll here now auths user h = .ok (quote (principalOf h.storage user) now, h') := by
  have hq := quote_of_nonneg hpos.le hbase now
  have hbounds :=
    accrued_bounds (Int.ediv_nonneg hpos.le (by norm_num : (0 : ℤ) ≤ 20)) now
  have hbasis : baseYield (principalOf h.storage user) =
      some (principalOf h.storage user / 20) := by
    rw [baseYield_of_mem (by unfold i128Min; omega) hbase, Int.tdiv_eq_ediv_of_nonneg hpos.le]
  have htotal : checkedAddI128 (principalOf h.storage user)
      (accrued (principalOf h.storage user / 20) now) =
        some (quote (principalOf h.storage user) now) := by
    rw [hq]
    exact checkedI128_of_mem (by unfold i128Min; omega) (by unfold i128Max at *; omega)
  obtain ⟨tokens, htr⟩ : ∃ tokens, h.tokens.transfer config.stakeToken here user
      (quote (principalOf h.storage user) now) = some tokens :=
    Tokens.exists_transfer (by omega) hfunds
  exact ⟨_, withdrawAll_eq_ok.mpr ⟨hauth, config, _, _, tokens, hc, hpos.ne', hflag, hbasis, htotal,
    (min_eq_left hfunds).symm, htr, rfl⟩⟩

/-- A token that the adapter holds as much of as there can be. -/
def endowed (here : Address) : Tokens := fun _ => Ledger.empty.mintAll [(here, i128Max)]

theorem endowed_balance (here token : Address) : (endowed here).balance token here = i128Max := by
  unfold endowed Tokens.balance Ledger.mintAll Ledger.mint Ledger.empty
  simp [i128Max, Ledger.mintAll]

/-- A position is paid what it is quoted, and its quote never falls, exactly if
    it is closed or its principal fits. -/
theorem quoteHolds_iff (hc : h.storage.config = some config)
    (h1 : i128Min ≤ principalOf h.storage user) (h2 : principalOf h.storage user ≤ i128Max) :
    QuoteHolds here h user ↔
      withdrawnOf h.storage user = true ∨ QuoteFits (principalOf h.storage user) := by
  by_cases hflag : withdrawnOf h.storage user = true
  · refine iff_of_true ⟨fun _ _ hpos _ => ?_, fun _ _ => ?_⟩ (.inl hflag)
    · rw [balanceOf_eq, if_neg (by simp [hflag])] at hpos
      exact absurd hpos (lt_irrefl 0)
    · rw [balanceOf_eq, balanceOf_eq, if_neg (by simp [hflag]), if_neg (by simp [hflag])]
  · have hopen : withdrawnOf h.storage user = false := by simpa using hflag
    have hbal : ∀ now, balanceOf now user h = quote (principalOf h.storage user) now := by
      intro now
      rw [balanceOf_eq, if_pos ⟨by rw [hc]; rfl, hopen⟩]
    constructor
    · intro hold
      refine .inr ((quote_mono_iff h1 ?_).mp fun t t' ht ht' => ?_)
      · by_contra hbig
        -- the largest principals are quoted, and refused with an overflow
        have hq : quote (principalOf h.storage user) 0 = principalOf h.storage user :=
          quote_of_base_zero (by rw [baseYield_of_large (by omega)]; rfl) h1 h2 0
        have hpos : 0 < balanceOf 0 user h := by
          rw [hbal, hq]; unfold i128Max at hbig; omega
        have hfunds : ∀ c ∈ h.storage.config,
            balanceOf 0 user h ≤ (endowed here).balance c.stakeToken here := by
          intro c _
          rw [hbal, hq, endowed_balance]
          exact h2
        obtain ⟨h', hw⟩ := hold.paid (Nat.zero_le _) (List.mem_singleton_self user) hpos hfunds
        obtain ⟨-, _, base, _, _, _, _, _, hb, _⟩ := withdrawAll_eq_ok.mp hw
        cases hb.symm.trans (baseYield_of_large (not_le.mp hbig))
      · rw [← hbal, ← hbal]
        exact hold.grows ht ht'
    · rintro (hw | hfit)
      · exact absurd hw hflag
      · refine ⟨fun _ hauth hpos hfunds => ?_, fun ht ht' => ?_⟩
        · rw [hbal] at hpos ⊢
          have hp := quote_pos h1 hfit hpos
          have hf := hfunds config hc
          rw [hbal] at hf
          exact exists_withdrawAll (h := { h with tokens := _ }) hc hopen hp (hfit.base_le hp.le)
            hauth hf
        · rw [hbal, hbal]
          by_cases h0 : 0 ≤ principalOf h.storage user
          · exact (quote_mono_iff h1 (hfit.base_le h0)).mpr hfit _ _ ht ht'
          · exact (quote_mono_iff h1 (by unfold i128Max; omega)).mpr hfit _ _ ht ht'

end Paid

/-! ## Main results -/

/-- A deposit that goes to a closed position, or leaves behind a principal that
    is paid what it is quoted. -/
def DepositFits (w : AdapterWorld) : AdapterAction → Prop
  | .deposit _ sender amount => withdrawnOf w.state.storage sender = true ∨
      QuoteFits (wrapI128 (principalOf w.state.storage sender + amount))
  | _ => True

instance (w : AdapterWorld) : (a : AdapterAction) → Decidable (DepositFits w a)
  | .deposit _ _ _ => inferInstanceAs (Decidable (_ ∨ _))
  | .initializeAdapter _ _ _ | .withdrawAll _ _ | .proposeAdmin _ _ | .acceptAdmin _
  | .moveTokens _ | .tick _ => isTrue trivial

section Runs

variable {here : Address} {tokens : Tokens} {now : ℕ} {w w' : AdapterWorld} {a : AdapterAction}
  {tr : List (AdapterWorld × AdapterAction)}

theorem depositFits_of_not_entry (h : a.isEntry = false) : DepositFits w a := by
  cases a with
  | deposit | withdrawAll => cases h
  | _ => trivial

theorem forall_quoteHolds_iff (hi : BooksInv w) :
    (∀ user, QuoteHolds here w.state user) ↔
      ∀ user, withdrawnOf w.state.storage user = true ∨
        QuoteFits (principalOf w.state.storage user) := by
  cases hc : w.state.storage.config with
  | some config =>
    exact forall_congr' fun user => quoteHolds_iff hc (hi.mem user).1 (hi.mem user).2
  | none =>
    refine iff_of_true (fun user => ⟨fun _ _ hpos _ => ?_, fun _ _ => ?_⟩) fun user => .inr ?_
    · rw [balanceOf_eq, if_neg (by simp [hc])] at hpos
      exact absurd hpos (lt_irrefl 0)
    · rw [balanceOf_eq, balanceOf_eq, if_neg (by simp [hc]), if_neg (by simp [hc])]
    · rw [principalOf_of_none (hi.unused hc)]
      exact quoteFits_zero

/-- A step keeps the quotes exactly if its deposit fits. -/
theorem BookEffect.quotes_iff (heff : BookEffect w w' a)
    (hold : ∀ user, withdrawnOf w.state.storage user = true ∨
      QuoteFits (principalOf w.state.storage user)) :
    (∀ user, withdrawnOf w'.state.storage user = true ∨
      QuoteFits (principalOf w'.state.storage user)) ↔ DepositFits w a := by
  cases heff with
  | @deposited auths sender amount config _ _ _ hp hf =>
    rw [hp, hf]
    constructor
    · intro h
      have hsender := h sender
      rwa [Function.update_self] at hsender
    · intro h user
      by_cases hu : user = sender
      · subst hu; rw [Function.update_self]; exact h
      · rw [Function.update_of_ne hu]; exact hold user
  | @withdrawn auths sender config _ _ _ hp hf =>
    refine iff_of_true (fun user => ?_) trivial
    rw [hp, hf]
    by_cases hu : user = sender
    · subst hu; exact .inl (Function.update_self _ _ _)
    · rw [Function.update_of_ne hu, Function.update_of_ne hu]; exact hold user
  | initialized _ _ hp =>
    rw [principalOf_congr hp, withdrawnOf_congr hp]
    exact iff_of_true hold trivial
  | kept ha _ hp =>
    rw [principalOf_congr hp, withdrawnOf_congr hp]
    exact iff_of_true hold (depositFits_of_not_entry ha)

/-- All along exactly the runs whose deposits all fit every user is paid what
    `balance_of` quotes, and no quote falls with time. -/
theorem quotes_hold_iff (hrun : Run (AdapterStep here) (.fresh tokens now) tr w) :
    AlongRun (fun _ w => ∀ user, QuoteHolds here w.state user) tr w ↔
      EachStep (fun _ w a => DepositFits w a) tr := by
  refine hrun.alongRun_iff ?_ ?_
  · refine (forall_quoteHolds_iff (booksInv_fresh tokens now)).mpr fun user => .inr ?_
    rw [principalOf_of_none rfl]
    exact quoteFits_zero
  · intro tr t a u hr hold hs
    have hi := booksInv_of_run hr
    rw [forall_quoteHolds_iff (hi.step hs)]
    exact hs.effect.quotes_iff ((forall_quoteHolds_iff hi).mp hold)

/-- A deposit of 100 fits. -/
theorem quotes_hold_deposit : ∃ tr w,
    Run (AdapterStep ⟨0⟩) (.fresh (endowed ⟨0⟩) 0) tr w ∧
      principalOf w.state.storage ⟨3⟩ = 100 ∧
      AlongRun (fun _ w => ∀ user, QuoteHolds ⟨0⟩ w.state user) tr w := by
  have hrun : Run (AdapterStep ⟨0⟩) (.fresh (endowed ⟨0⟩) 0)
      [(_, .deposit [⟨3⟩] ⟨3⟩ 100), (_, .initializeAdapter [⟨1⟩] ⟨1⟩ ⟨2⟩)] _ :=
    .snoc (.snoc .nil (.initializeAdapter rfl)) (.deposit (by decide) rfl)
  exact ⟨_, _, hrun, rfl, (quotes_hold_iff hrun).mpr ⟨.inr (by decide +kernel), trivial, trivial⟩⟩

/-- With deposits of `2^120` and `2^80`, the adapter refuses the first user the
    balance it quotes and could pay, and the second one's balance falls. -/
theorem not_quotes_hold : ∃ tr w,
    Run (AdapterStep ⟨0⟩) (.fresh (endowed ⟨0⟩) 0) tr w ∧
      0 < balanceOf w.now ⟨3⟩ w.state ∧
      balanceOf w.now ⟨3⟩ w.state ≤ w.state.tokens.balance ⟨2⟩ ⟨0⟩ ∧
      Fallible.failure (withdrawAll ⟨0⟩ w.now [⟨3⟩] ⟨3⟩ w.state) =
        some (.error .ArithmeticOverflow) ∧
      balanceOf u64Max ⟨4⟩ w.state < balanceOf (10 ^ 15) ⟨4⟩ w.state := by
  have hrun : Run (AdapterStep ⟨0⟩) (.fresh (endowed ⟨0⟩) 0)
      [(_, .deposit [⟨4⟩] ⟨4⟩ (2 ^ 80)), (_, .deposit [⟨3⟩] ⟨3⟩ (2 ^ 120)),
        (_, .initializeAdapter [⟨1⟩] ⟨1⟩ ⟨2⟩)] _ :=
    .snoc (.snoc (.snoc .nil (.initializeAdapter rfl)) (.deposit (by decide) rfl))
      (.deposit (by decide) rfl)
  exact ⟨_, _, hrun, by decide +kernel, by decide +kernel, by decide +kernel, by decide +kernel⟩

end Runs

end InverseArena.RwaAdapter
