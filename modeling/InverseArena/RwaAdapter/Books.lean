import InverseArena.RwaAdapter.Backing

/-!
# The books of the RWA adapter

A position is a principal and a `withdrawn` flag. `deposit` adds to the
principal and keeps the flag; `withdraw_all` clears the principal and sets the
flag, which no call takes back (`contract/rwa-adapter/src/lib.rs`, lines 37-120).

Results:
* `AdapterStep.effect`: what a step does to the positions and to the total.
* `booksInv_of_run`: principals are `i128` values, finitely many are not zero,
  and there is none before the adapter is initialized.
-/

namespace InverseArena.RwaAdapter

open MachineInt Host KeyedMap Transition

/-- The `withdrawn` flag of `user`. -/
def withdrawnOf (s : RwaStorage) (user : Address) : Bool := (s.loadPosition user).withdrawn

/-- The calls that change positions. -/
def AdapterAction.isEntry : AdapterAction → Bool
  | .deposit _ _ _ | .withdrawAll _ _ => true
  | _ => false

/-- What a step does to the positions, the total and the clock. -/
inductive BookEffect (w w' : AdapterWorld) : AdapterAction → Prop
  | deposited {auths : List Address} {sender : Address} {amount : ℤ} {config : RwaConfig} :
      0 < amount → w.state.storage.config = some config →
      w'.state.storage.config = some { config with
        totalDeposited := wrapI128 (config.totalDeposited + amount) } →
      principalOf w'.state.storage = Function.update (principalOf w.state.storage) sender
        (wrapI128 (principalOf w.state.storage sender + amount)) →
      withdrawnOf w'.state.storage = withdrawnOf w.state.storage →
      w'.state.storage.initialized = w.state.storage.initialized → w'.now = w.now →
      BookEffect w w' (.deposit auths sender amount)
  | withdrawn {auths : List Address} {sender : Address} {config : RwaConfig} :
      withdrawnOf w.state.storage sender = false → w.state.storage.config = some config →
      w'.state.storage.config = some { config with
        totalDeposited := satSubI128 config.totalDeposited (principalOf w.state.storage sender) } →
      principalOf w'.state.storage = Function.update (principalOf w.state.storage) sender 0 →
      withdrawnOf w'.state.storage = Function.update (withdrawnOf w.state.storage) sender true →
      w'.state.storage.initialized = w.state.storage.initialized → w'.now = w.now →
      BookEffect w w' (.withdrawAll auths sender)
  | initialized {auths : List Address} {admin stakeToken : Address} :
      w.state.storage.initialized = false →
      w'.state.storage.config = some ⟨admin, stakeToken, 0⟩ →
      w'.state.storage.position = w.state.storage.position →
      w'.state.storage.initialized = true → w'.now = w.now →
      BookEffect w w' (.initializeAdapter auths admin stakeToken)
  | kept {a : AdapterAction} : a.isEntry = false →
      w'.state.storage.config.map (·.totalDeposited) =
        w.state.storage.config.map (·.totalDeposited) →
      w'.state.storage.position = w.state.storage.position →
      w'.state.storage.initialized = w.state.storage.initialized → w.now ≤ w'.now →
      BookEffect w w' a

theorem withdrawnOf_savePosition (s : RwaStorage) (user : Address) (pos : YieldAccrual) :
    withdrawnOf (s.savePosition user pos) =
      Function.update (withdrawnOf s) user pos.withdrawn := by
  funext u
  unfold withdrawnOf
  rw [RwaStorage.loadPosition_savePosition]
  by_cases h : u = user
  · subst h; simp
  · simp [h]

/-- Only `position` matters for the flags. -/
theorem withdrawnOf_congr {s s' : RwaStorage} (h : s'.position = s.position) :
    withdrawnOf s' = withdrawnOf s := by
  funext u; unfold withdrawnOf RwaStorage.loadPosition; rw [h]

variable {here : Address} {w w' : AdapterWorld} {a : AdapterAction}

/-- Every step has one of these effects. -/
theorem AdapterStep.effect (hs : AdapterStep here w a w') : BookEffect w w' a := by
  cases hs with
  | initializeAdapter h =>
    simp only [RwaAdapter.initializeAdapter, Fallible.bind_eq_ok, requireAuth_eq_ok, check_eq_ok,
      Fallible.pure_eq_ok, exists_const] at h
    obtain ⟨-, hfalse, rfl⟩ := h
    exact .initialized hfalse rfl rfl rfl rfl
  | deposit _ hd =>
    obtain ⟨-, hpos, config, hc, rfl⟩ := deposit_eq_ok.mp hd
    refine .deposited hpos hc rfl ?_ ?_ rfl rfl
    · exact (principalOf_congr rfl).trans (principalOf_savePosition _ _ _)
    · refine (withdrawnOf_congr rfl).trans ((withdrawnOf_savePosition _ _ _).trans ?_)
      exact Function.update_eq_self _ _
  | withdrawAll _ hw =>
    obtain ⟨-, config, base, total, tokens, hc, -, hflag, -, -, -, -, rfl⟩ :=
      withdrawAll_eq_ok.mp hw
    refine .withdrawn hflag hc rfl ?_ ?_ rfl rfl
    · exact (principalOf_congr rfl).trans (principalOf_savePosition _ _ _)
    · exact (withdrawnOf_congr rfl).trans (withdrawnOf_savePosition _ _ _)
  | proposeAdmin h =>
    simp only [RwaAdapter.proposeAdmin, RwaStorage.loadConfig, Fallible.bind_eq_ok,
      requireAuth_eq_ok, okOr_eq_ok, Fallible.pure_eq_ok, exists_const] at h
    obtain ⟨config, -, -, rfl⟩ := h
    exact .kept rfl rfl rfl rfl le_rfl
  | acceptAdmin h =>
    simp only [RwaAdapter.acceptAdmin, RwaStorage.loadConfig, Fallible.bind_eq_ok,
      requireAuth_eq_ok, okOr_eq_ok, Fallible.pure_eq_ok, exists_const] at h
    obtain ⟨newAdmin, -, -, config, hc, rfl⟩ := h
    exact .kept rfl (by rw [hc]; rfl) rfl rfl le_rfl
  | moveTokens => exact .kept rfl rfl rfl rfl le_rfl
  | tick hle => exact .kept rfl rfl rfl rfl hle

/-! ## What holds of the books in every run -/

/-- Principals are `i128` values, finitely many of them are not zero, the total
    is at most `i128::MAX`, and a position needs an initialized adapter. -/
structure BooksInv (w : AdapterWorld) : Prop where
  mem : ∀ user, i128Min ≤ principalOf w.state.storage user ∧
    principalOf w.state.storage user ≤ i128Max
  total_le : ∀ total ∈ w.state.storage.config.map (·.totalDeposited), total ≤ i128Max
  finite : (Function.support (principalOf w.state.storage)).Finite
  configured : w.state.storage.config.isSome = w.state.storage.initialized
  unused : w.state.storage.config = none → w.state.storage.position = fun _ => none

theorem booksInv_fresh (tokens : Tokens) (now : ℕ) : BooksInv (.fresh tokens now) where
  mem := by
    intro user
    have h : principalOf (AdapterWorld.fresh tokens now).state.storage user = 0 := rfl
    rw [h]
    unfold i128Min i128Max
    norm_num
  total_le := by rintro _ ⟨⟩
  finite := by
    have h : principalOf (AdapterWorld.fresh tokens now).state.storage = fun _ => 0 :=
      principalOf_of_none rfl
    rw [h]; simp
  configured := rfl
  unused := fun _ => rfl

theorem mem_update {f : Address → ℤ} {user : Address} {x : ℤ}
    (h : ∀ u, i128Min ≤ f u ∧ f u ≤ i128Max) (hx : i128Min ≤ x ∧ x ≤ i128Max) (u : Address) :
    i128Min ≤ Function.update f user x u ∧ Function.update f user x u ≤ i128Max := by
  by_cases hu : u = user
  · subst hu; rw [Function.update_self]; exact hx
  · rw [Function.update_of_ne hu]; exact h u

theorem BooksInv.step (hi : BooksInv w) (hs : AdapterStep here w a w') : BooksInv w' := by
  cases hs.effect with
  | deposited _ hc hc' hp _ hinit =>
    exact {
      mem := by rw [hp]; exact mem_update hi.mem (wrapI128_mem _)
      total_le := by
        rw [hc']
        rintro _ ⟨⟩
        exact (wrapI128_mem _).2
      finite := by rw [hp]; exact support_update_finite hi.finite _ _
      configured := by rw [hc', hinit, ← hi.configured, hc]; rfl
      unused := by rw [hc']; exact nofun }
  | withdrawn _ hc hc' hp _ hinit =>
    exact {
      mem := by
        rw [hp]
        exact mem_update hi.mem (by unfold i128Min i128Max; norm_num)
      total_le := by
        rw [hc']
        rintro _ ⟨⟩
        exact (clampI128_mem _).2
      finite := by rw [hp]; exact support_update_finite hi.finite _ _
      configured := by rw [hc', hinit, ← hi.configured, hc]; rfl
      unused := by rw [hc']; exact nofun }
  | initialized _ hc' hp hinit =>
    exact {
      mem := by rw [principalOf_congr hp]; exact hi.mem
      total_le := by
        rw [hc']
        rintro _ ⟨⟩
        unfold i128Max
        norm_num
      finite := by rw [principalOf_congr hp]; exact hi.finite
      configured := by rw [hc', hinit]; rfl
      unused := by rw [hc']; exact nofun }
  | kept _ hc hp hinit =>
    have hsome := congrArg Option.isSome hc
    rw [Option.isSome_map, Option.isSome_map] at hsome
    exact {
      mem := by rw [principalOf_congr hp]; exact hi.mem
      total_le := by rw [hc]; exact hi.total_le
      finite := by rw [principalOf_congr hp]; exact hi.finite
      configured := by rw [hsome, hinit, hi.configured]
      unused := by
        intro hnone
        rw [hnone] at hsome
        rw [hp]
        exact hi.unused (Option.isSome_eq_false_iff.mp hsome.symm |> Option.isNone_iff_eq_none.mp) }

theorem booksInv_of_run {tokens : Tokens} {now : ℕ} {tr : List (AdapterWorld × AdapterAction)}
    (hrun : Run (AdapterStep here) (.fresh tokens now) tr w) : BooksInv w :=
  hrun.invariant (fun _ _ _ hi hs => hi.step hs) (booksInv_fresh tokens now)

end InverseArena.RwaAdapter
