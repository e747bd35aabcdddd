import InverseArena.Arena.Effects
import InverseArena.RwaAdapter.Backing

/-!
# The arena and the RWA adapter together

The contract of `contract/rwa-adapter` deployed at `adapter` as the yield vault
of the arena deployed at `arena`, on a network of standard tokens. Everybody
else may use the adapter and move tokens, but sends nothing to the adapter.

Results:
* `Records.external`: nobody else changes what the adapter records for the
  arena, or fills the adapter.
* `Records.withdrawAll`, `Records.withdrawAll_overflow`: the adapter pays the
  arena nothing, and fails if its yield computation overflows.
-/

namespace InverseArena.Composition

open Host MachineInt KeyedMap Arena RwaAdapter

variable {arena adapter : Address}

/-- An action of somebody other than the arena that sends nothing to the
    adapter. -/
def Outsider (arena adapter : Address) (h : RwaState) : AdapterAction → Prop
  | .initializeAdapter auths _ _ | .deposit auths _ _ | .withdrawAll auths _
  | .proposeAdmin auths _ | .acceptAdmin auths => arena ∉ auths
  | .moveTokens tokens => ∀ token,
      tokens.balance token adapter = h.tokens.balance token adapter ∧
        h.tokens.balance token arena ≤ tokens.balance token arena
  | .tick _ => True

/-- The arena's surroundings: the adapter is the only vault, the arena
    authorizes its own calls to it (`from` is the arena), and the oracle's
    answer, `rate`, is arbitrary. -/
def adapterEnv (arena adapter : Address) (sha256 : List UInt8 → BytesN 32)
    (rate : ℕ → Address → RwaState → Option ℕ) : Env RwaState where
  here := arena
  mayAuthorize a := a ≠ arena ∧ a ≠ adapter
  evolves now h h' := ∃ a, Outsider arena adapter h a ∧ AdapterStep adapter ⟨h, now⟩ a ⟨h', now⟩
  sha256 := sha256
  transfer _ token sender recipient amount h :=
    (h.tokens.transfer token sender recipient amount).map fun tokens => { h with tokens := tokens }
  deposit _ vault sender amount h :=
    if vault = adapter then (RwaAdapter.deposit [arena] sender amount h).toOption else none
  withdrawAll now vault sender h :=
    if vault = adapter then (RwaAdapter.withdrawAll adapter now [arena] sender h).toOption else none
  balanceOf now vault user h :=
    if vault = adapter then some (RwaAdapter.balanceOf now user h, h) else none
  getCurrentYieldBps now oracle h := (rate now oracle h).map fun bps => (bps, h)
  uploaded _ _ := false

/-- The adapter holds no tokens, and records `principal` for the arena. -/
structure Records (arena adapter : Address) (principal : ℤ) (h : RwaState) : Prop where
  empty : ∀ token, h.tokens.balance token adapter = 0
  position : h.storage.loadPosition arena = ⟨principal, false⟩
  configured : principal ≠ 0 → h.storage.config ≠ none

section Specs

variable {sha256 : List UInt8 → BytesN 32} {rate : ℕ → Address → RwaState → Option ℕ}
  {principal amount : ℤ} {h h' : RwaState} {now : ℕ} {token sender recipient : Address}

/-- A transfer of the environment, account by account. -/
theorem transfer_spec
    (ht : (adapterEnv arena adapter sha256 rate).transfer now token sender recipient amount h =
      some h') :
    h'.storage = h.storage ∧ 0 ≤ amount ∧ amount ≤ h.tokens.balance token sender ∧
      (∀ a, h'.tokens.balance token a = move (h.tokens.balance token) sender recipient amount a) ∧
      ∀ t a, t ≠ token → h'.tokens.balance t a = h.tokens.balance t a := by
  obtain ⟨tokens, htr, rfl⟩ := Option.map_eq_some_iff.mp ht
  obtain ⟨h0, hx, hmove, hother⟩ := Tokens.transfer_eq_some htr
  refine ⟨rfl, h0, hx, hmove, fun t a hne => ?_⟩
  show (tokens t).balance a = _
  rw [hother t hne]
  rfl

/-- An account that neither pays nor is paid. -/
theorem transfer_frame
    (ht : (adapterEnv arena adapter sha256 rate).transfer now token sender recipient amount h =
      some h') {a : Address} (hs : a ≠ sender) (hr : a ≠ recipient) (t : Address) :
    h'.tokens.balance t a = h.tokens.balance t a := by
  obtain ⟨-, -, -, hmove, hother⟩ := transfer_spec ht
  by_cases heq : t = token
  · subst heq
    rw [hmove, move_apply, if_neg hs, if_neg hr]
    omega
  · exact hother t a heq

/-- A player pays the arena. -/
theorem Records.transfer (hr : Records arena adapter principal h) (hne : arena ≠ adapter)
    (hsender : sender ≠ arena ∧ sender ≠ adapter)
    (ht : (adapterEnv arena adapter sha256 rate).transfer now token sender arena amount h =
      some h') :
    Records arena adapter principal h' ∧
      h'.tokens.balance token arena = h.tokens.balance token arena + amount := by
  obtain ⟨hstorage, -, -, hmove, -⟩ := transfer_spec ht
  refine ⟨⟨fun t => ?_, ?_, ?_⟩, ?_⟩
  · rw [transfer_frame ht hsender.2.symm hne.symm t]
    exact hr.empty t
  · rw [hstorage]
    exact hr.position
  · rw [hstorage]
    exact hr.configured
  · rw [hmove, move_apply, if_neg hsender.1.symm, if_pos rfl]
    omega

/-- The arena's deposit is recorded, and moves nothing. -/
theorem Records.deposit (hr : Records arena adapter principal h)
    (h0 : 0 ≤ principal) (hfit : principal + amount ≤ i128Max)
    (hd : (adapterEnv arena adapter sha256 rate).deposit now adapter arena amount h = some h') :
    Records arena adapter (principal + amount) h' ∧ h'.tokens = h.tokens := by
  change (if adapter = adapter then _ else none) = some h' at hd
  rw [if_pos rfl, Fallible.toOption_eq_some] at hd
  obtain ⟨-, hpos, config, hc, rfl⟩ := deposit_eq_ok.mp hd
  refine ⟨⟨hr.empty, ?_, fun _ => ?_⟩, rfl⟩
  · show (h.storage.savePosition arena _).loadPosition arena = _
    rw [RwaStorage.loadPosition_savePosition, if_pos rfl, hr.position]
    dsimp only
    rw [wrapI128_of_mem (by unfold i128Min; omega) hfit]
  · simp

/-- Somebody else's action. -/
theorem Records.external (hr : Records arena adapter principal h)
    (he : (adapterEnv arena adapter sha256 rate).evolves now h h') :
    Records arena adapter principal h' ∧
      ∀ t, h.tokens.balance t arena ≤ h'.tokens.balance t arena := by
  obtain ⟨a, hout, hstep⟩ := he
  cases hstep with
  | initializeAdapter hinit =>
    simp only [RwaAdapter.initializeAdapter, Fallible.bind_eq_ok, requireAuth_eq_ok, check_eq_ok,
      Fallible.pure_eq_ok, exists_const] at hinit
    obtain ⟨-, -, rfl⟩ := hinit
    exact ⟨⟨hr.empty, hr.position, fun _ => by simp⟩, fun _ => le_rfl⟩
  | @deposit h' auths sender amount hhere hd =>
    obtain ⟨ha, -, config, hc, rfl⟩ := deposit_eq_ok.mp hd
    have hother : arena ≠ sender := by
      rintro rfl
      exact hout ha
    refine ⟨⟨hr.empty, ?_, fun _ => by simp⟩, fun _ => le_rfl⟩
    show (h.storage.savePosition sender _).loadPosition arena = _
    rw [RwaStorage.loadPosition_savePosition, if_neg hother]
    exact hr.position
  | @withdrawAll h' auths sender paid hhere hw =>
    obtain ⟨ha, config, base, total, tokens, hc, -, -, -, -, hpaid, htr, rfl⟩ :=
      withdrawAll_eq_ok.mp hw
    have hother : arena ≠ sender := by
      rintro rfl
      exact hout ha
    -- nothing is there to be paid
    obtain ⟨h0, hx, hmove, hrest⟩ := Tokens.transfer_eq_some htr
    rw [hr.empty] at hx
    obtain rfl : paid = 0 := by omega
    have hsame : ∀ t a, tokens.balance t a = h.tokens.balance t a := by
      intro t a
      by_cases heq : t = config.stakeToken
      · subst heq
        rw [hmove, move_apply]
        simp
      · show (tokens t).balance a = _
        rw [hrest t heq]
        rfl
    refine ⟨⟨fun t => (hsame t _).trans (hr.empty t), ?_, fun _ => by simp⟩,
      fun t => (hsame t _).ge⟩
    show (h.storage.savePosition sender _).loadPosition arena = _
    rw [RwaStorage.loadPosition_savePosition, if_neg hother]
    exact hr.position
  | proposeAdmin hp =>
    simp only [RwaAdapter.proposeAdmin, RwaStorage.loadConfig, Fallible.bind_eq_ok,
      requireAuth_eq_ok, okOr_eq_ok, Fallible.pure_eq_ok, exists_const] at hp
    obtain ⟨config, hc, -, rfl⟩ := hp
    exact ⟨⟨hr.empty, hr.position, hr.configured⟩, fun _ => le_rfl⟩
  | acceptAdmin ha =>
    simp only [RwaAdapter.acceptAdmin, RwaStorage.loadConfig, Fallible.bind_eq_ok,
      requireAuth_eq_ok, okOr_eq_ok, Fallible.pure_eq_ok, exists_const] at ha
    obtain ⟨newAdmin, -, -, config, hc, rfl⟩ := ha
    exact ⟨⟨hr.empty, hr.position, fun _ => by simp⟩, fun _ => le_rfl⟩
  | moveTokens hle =>
    exact ⟨⟨fun t => (hout t).1.trans (hr.empty t), hr.position, hr.configured⟩,
      fun t => (hout t).2⟩
  | tick _ _ => exact ⟨hr, fun _ => le_rfl⟩

/-- The adapter has nothing, and pays it out. -/
theorem Records.withdrawAll (hr : Records arena adapter principal h) (h0 : 0 < principal)
    (hfit : principal * 500 ≤ i128Max) :
    ∃ h', (adapterEnv arena adapter sha256 rate).withdrawAll now adapter arena h =
      some (0, h') := by
  have hbase := baseYield_of_small h0.le hfit
  have hbounds := accrued_bounds (baseYield_nonneg h0.le hbase) now
  obtain ⟨config, hc⟩ := Option.ne_none_iff_exists'.mp (hr.configured h0.ne')
  have htotal : checkedAddI128 principal (accrued (principal * 500 / 10000) now) =
      some (principal + accrued (principal * 500 / 10000) now) := by
    apply checkedI128_of_mem
    · unfold i128Min
      omega
    · omega
  have hempty := hr.empty config.stakeToken
  obtain ⟨tokens, htr⟩ := @Tokens.exists_transfer h.tokens config.stakeToken adapter arena 0 le_rfl
    hempty.ge
  have hok := withdrawAll_eq_ok.mpr ⟨List.mem_singleton.mpr rfl, config, _, _, tokens, hc,
    by rw [hr.position]; exact h0.ne', by rw [hr.position], by rw [hr.position]; exact hbase,
    by rw [hr.position]; exact htotal, rfl, by rw [hempty, min_eq_right (by omega)]; exact htr, rfl⟩
  rw [hempty, min_eq_right (by omega)] at hok
  exact ⟨_, (if_pos rfl).trans (Fallible.toOption_eq_some.mpr hok)⟩

/-- A principal whose yield computation overflows cannot be withdrawn. -/
theorem Records.withdrawAll_overflow (hr : Records arena adapter principal h)
    (hlarge : i128Max < principal * 500) :
    (adapterEnv arena adapter sha256 rate).withdrawAll now adapter arena h = none := by
  rw [Option.eq_none_iff_forall_ne_some]
  rintro ⟨paid, h'⟩ hw
  change (if adapter = adapter then _ else none) = some (paid, h') at hw
  rw [if_pos rfl, Fallible.toOption_eq_some] at hw
  obtain ⟨-, config, base, total, tokens, -, -, -, hbase, -⟩ := withdrawAll_eq_ok.mp hw
  rw [hr.position] at hbase
  dsimp only at hbase
  rw [baseYield_of_large hlarge] at hbase
  cases hbase

/-- What `balance_of` answers about the arena. -/
theorem Records.balanceOf_bounds (hr : Records arena adapter principal h) (h0 : 0 ≤ principal) :
    0 ≤ RwaAdapter.balanceOf now arena h ∧ RwaAdapter.balanceOf now arena h ≤ i128Max := by
  have hmax : (0 : ℤ) ≤ i128Max := by
    unfold i128Max
    norm_num
  unfold RwaAdapter.balanceOf
  rw [hr.position]
  cases h.storage.config with
  | none => exact ⟨le_rfl, hmax⟩
  | some config =>
    dsimp only
    rw [if_neg (by simp)]
    have hbase : 0 ≤ (baseYield principal).getD 0 := by
      cases hb : baseYield principal with
      | none => exact le_rfl
      | some base => exact baseYield_nonneg h0 hb
    have hyield := accrued_bounds hbase now
    unfold checkedAddI128 checkedI128
    split_ifs with hrange
    · exact ⟨add_nonneg h0 hyield.1, hrange.2⟩
    · exact ⟨le_rfl, hmax⟩

end Specs

end InverseArena.Composition
