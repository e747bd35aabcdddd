import InverseArena.Host.Types
import InverseArena.Library.Handover

/-!
# The oracle contract

Model of `contract/oracle/src/lib.rs`: the rate in basis points that the arenas ask for, its
ceiling, and the admin who sets both. Entry expiry is not modelled, and an executed `upgrade`
ends the life of this code, so it is not among the calls of a run.

Results:
* `exec_effect`: what a successful call does, one rule per entry point.
* `rate_bounded`: the rate was last set by the admin of the moment, within the ceiling of the
  moment, and in which runs it stays within the ceiling.
* `OracleStep.moves`: the role of the admin changes hands in two steps.
-/

namespace InverseArena.Oracle

open Host Transition Handover

/-- `DEFAULT_MAX_YIELD_BPS`. -/
def defaultMaxYieldBps : ℕ := 5000

/-- `OracleError`. -/
inductive OracleError where
  | NotInitialized | AlreadyInitialized | RateTooHigh | NoPendingAdmin
  deriving DecidableEq, Repr

/-- What the contract publishes: `rate_set`, `max_set` and `adm_chg`. -/
inductive OracleEvent where
  | rateSet (rateBps : ℕ)
  | maxSet (maxRateBps : ℕ)
  | adminChanged (oldAdmin pendingAdmin : Address)
  deriving DecidableEq, Repr

/-- The contract's storage (`ADMIN`, `RATE`, `MAX_RATE`, `P_ADMIN`) and its events, oldest
    first. -/
structure OracleState where
  admin : Option Address
  rate : Option ℕ
  maxRate : Option ℕ
  pendingAdmin : Option Address
  events : List OracleEvent
  deriving DecidableEq, Repr

/-- A freshly deployed oracle. -/
def OracleState.fresh : OracleState := ⟨none, none, none, none, []⟩

/-! ## The entry points -/

/-- `env.events().publish(..)`. -/
def OracleState.publish (s : OracleState) (e : OracleEvent) : OracleState :=
  { s with events := s.events ++ [e] }

/-- `get_max_yield_bps()`. -/
def getMaxYieldBps (s : OracleState) : ℕ := s.maxRate.getD defaultMaxYieldBps

/-- `get_current_yield_bps()`. -/
def getCurrentYieldBps (s : OracleState) : ℕ := s.rate.getD 0

variable (auths : List Address)

/-- `initialize(admin, initial_rate_bps)`. -/
def initializeOracle (admin : Address) (initialRateBps : ℕ) (s : OracleState) :
    Result OracleError OracleState := do
  check (¬ s.admin.isSome = true) .AlreadyInitialized
  check (¬ initialRateBps > defaultMaxYieldBps) .RateTooHigh
  requireAuth auths admin
  pure { s with
    admin := some admin, rate := some initialRateBps, maxRate := some defaultMaxYieldBps }

/-- `set_yield_bps(rate_bps)`. -/
def setYieldBps (rateBps : ℕ) (s : OracleState) : Result OracleError OracleState := do
  let admin ← okOr s.admin .NotInitialized
  let ceiling := s.maxRate.getD defaultMaxYieldBps
  check (¬ rateBps > ceiling) .RateTooHigh
  requireAuth auths admin
  pure ({ s with rate := some rateBps }.publish (.rateSet rateBps))

/-- `set_max_rate(max_rate_bps)`. -/
def setMaxRate (maxRateBps : ℕ) (s : OracleState) : Result OracleError OracleState := do
  let admin ← okOr s.admin .NotInitialized
  requireAuth auths admin
  pure ({ s with maxRate := some maxRateBps }.publish (.maxSet maxRateBps))

/-- `propose_admin(new_admin)`. -/
def proposeAdmin (newAdmin : Address) (s : OracleState) : Result OracleError OracleState := do
  let admin ← okOr s.admin .NotInitialized
  requireAuth auths admin
  pure { s with pendingAdmin := some newAdmin }

/-- `accept_admin()`. -/
def acceptAdmin (s : OracleState) : Result OracleError OracleState := do
  let pendingAdmin ← okOr s.pendingAdmin .NoPendingAdmin
  requireAuth auths pendingAdmin
  let oldAdmin ← okOr s.admin .NotInitialized
  pure ({ s with admin := some pendingAdmin, pendingAdmin := none }.publish
    (.adminChanged oldAdmin pendingAdmin))

/-- `upgrade(new_wasm_hash)`: the code that the host installs, if the call succeeds; it traps
    unless the code has been uploaded to the ledger. -/
def upgrade (uploaded : BytesN 32 → Bool) (newWasmHash : BytesN 32) (s : OracleState) :
    Result OracleError (BytesN 32) := do
  let admin ← okOr s.admin .NotInitialized
  requireAuth auths admin
  Fallible.ensure (uploaded newWasmHash = true) .trap
  pure newWasmHash

/-- A call that changes the storage. -/
inductive OracleCall where
  | initializeOracle (admin : Address) (initialRateBps : ℕ)
  | setYieldBps (rateBps : ℕ)
  | setMaxRate (maxRateBps : ℕ)
  | proposeAdmin (newAdmin : Address)
  | acceptAdmin
  deriving DecidableEq, Repr

/-- The call `c` authorized by `auths`. -/
def exec : OracleCall → OracleState → Result OracleError OracleState
  | .initializeOracle admin initialRateBps => initializeOracle auths admin initialRateBps
  | .setYieldBps rateBps => setYieldBps auths rateBps
  | .setMaxRate maxRateBps => setMaxRate auths maxRateBps
  | .proposeAdmin newAdmin => proposeAdmin auths newAdmin
  | .acceptAdmin => acceptAdmin auths

/-- A call with the addresses that authorize it. -/
structure OracleAction where
  auths : List Address
  call : OracleCall
  deriving DecidableEq, Repr

/-- One step. A failing call is rolled back and is no step. -/
inductive OracleStep : OracleState → OracleAction → OracleState → Prop
  | call {s s' : OracleState} {auths : List Address} {c : OracleCall} :
      exec auths c s = .ok s' → OracleStep s ⟨auths, c⟩ s'

/-! ## What a successful call does -/

/-- A successful call, with its guards and the state it leaves behind. -/
inductive Effect (s : OracleState) : OracleCall → OracleState → Prop
  | initialized {admin : Address} {rate : ℕ} : s.admin = none → rate ≤ defaultMaxYieldBps →
      admin ∈ auths → Effect s (.initializeOracle admin rate)
        { s with admin := some admin, rate := some rate, maxRate := some defaultMaxYieldBps }
  | rateSet {admin : Address} {rate : ℕ} : s.admin = some admin → rate ≤ getMaxYieldBps s →
      admin ∈ auths → Effect s (.setYieldBps rate)
        ({ s with rate := some rate }.publish (.rateSet rate))
  | maxSet {admin : Address} {maxRate : ℕ} : s.admin = some admin → admin ∈ auths →
      Effect s (.setMaxRate maxRate)
        ({ s with maxRate := some maxRate }.publish (.maxSet maxRate))
  | proposed {admin newAdmin : Address} : s.admin = some admin → admin ∈ auths →
      Effect s (.proposeAdmin newAdmin) { s with pendingAdmin := some newAdmin }
  | accepted {oldAdmin pending : Address} : s.pendingAdmin = some pending → pending ∈ auths →
      s.admin = some oldAdmin → Effect s .acceptAdmin
        ({ s with admin := some pending, pendingAdmin := none }.publish
          (.adminChanged oldAdmin pending))

section Runs

variable {auths : List Address} {s s' t : OracleState} {c : OracleCall} {a : OracleAction}
  {tr : List (OracleState × OracleAction)}

theorem exec_effect (h : exec auths c s = .ok s') : Effect auths s c s' := by
  cases c with
  | initializeOracle admin rate =>
    simp only [exec, initializeOracle, Fallible.bind_eq_ok, check_eq_ok, requireAuth_eq_ok,
      Fallible.pure_eq_ok, exists_const, gt_iff_lt, Nat.not_lt, Bool.not_eq_true,
      Option.isSome_eq_false_iff, Option.isNone_iff_eq_none] at h
    obtain ⟨hnone, hrate, ha, rfl⟩ := h
    exact .initialized hnone hrate ha
  | setYieldBps rate =>
    simp only [exec, setYieldBps, Fallible.bind_eq_ok, check_eq_ok, requireAuth_eq_ok, okOr_eq_ok,
      Fallible.pure_eq_ok, exists_const, gt_iff_lt, Nat.not_lt] at h
    obtain ⟨admin, hadmin, hrate, ha, rfl⟩ := h
    exact .rateSet hadmin hrate ha
  | setMaxRate maxRate =>
    simp only [exec, setMaxRate, Fallible.bind_eq_ok, requireAuth_eq_ok, okOr_eq_ok,
      Fallible.pure_eq_ok, exists_const] at h
    obtain ⟨admin, hadmin, ha, rfl⟩ := h
    exact .maxSet hadmin ha
  | proposeAdmin newAdmin =>
    simp only [exec, proposeAdmin, Fallible.bind_eq_ok, requireAuth_eq_ok, okOr_eq_ok,
      Fallible.pure_eq_ok, exists_const] at h
    obtain ⟨admin, hadmin, ha, rfl⟩ := h
    exact .proposed hadmin ha
  | acceptAdmin =>
    simp only [exec, acceptAdmin, Fallible.bind_eq_ok, requireAuth_eq_ok, okOr_eq_ok,
      Fallible.pure_eq_ok, exists_const] at h
    obtain ⟨pending, hpending, ha, oldAdmin, hold, rfl⟩ := h
    exact .accepted hpending ha hold

/-! ## The rate -/

/-- The step sets the rate: the admin consents, and the ceiling of the moment is respected. -/
def SetsRate (s : OracleState) (a : OracleAction) (rate : ℕ) : Prop :=
  (∃ admin ∈ a.auths, a.call = .initializeOracle admin rate ∧ s.admin = none ∧
      rate ≤ defaultMaxYieldBps) ∨
    ∃ admin ∈ a.auths, a.call = .setYieldBps rate ∧ s.admin = some admin ∧
      rate ≤ getMaxYieldBps s

/-- Nobody has set up the oracle, or the rate it answers is the last one that was set. -/
def RateLawful (tr : List (OracleState × OracleAction)) (s : OracleState) : Prop :=
  (s.admin = none ∧ getCurrentYieldBps s = 0) ∨
    ∃ newer v a older, tr = newer ++ (v, a) :: older ∧ SetsRate v a (getCurrentYieldBps s) ∧
      ∀ e ∈ newer, ∀ rate, ¬ SetsRate e.1 e.2 rate

theorem RateLawful.keep (h : RateLawful tr s) (hadmin : s'.admin = none ↔ s.admin = none)
    (hrate : s'.rate = s.rate) (hquiet : ∀ rate, ¬ SetsRate s a rate) :
    RateLawful ((s, a) :: tr) s' := by
  have hsame : getCurrentYieldBps s' = getCurrentYieldBps s := congrArg (·.getD 0) hrate
  rcases h with ⟨hnone, hzero⟩ | ⟨newer, v, b, older, rfl, hset, hnewer⟩
  · exact .inl ⟨hadmin.mpr hnone, hsame.trans hzero⟩
  · refine .inr ⟨(s, a) :: newer, v, b, older, rfl, hsame ▸ hset, fun e he => ?_⟩
    rcases List.mem_cons.mp he with rfl | he
    · exact hquiet
    · exact hnewer e he

/-- At each point of a run, the rate is the one last set, by the admin of that moment and
    within the ceiling of that moment; it is 0 before the oracle is initialized. -/
theorem rateLawful_of_run (h : Run OracleStep .fresh tr t) : AlongRun RateLawful tr t := by
  refine h.alongRun (C := fun _ _ _ => True) (.inl ⟨rfl, rfl⟩) ?_
    (.of_forall fun _ _ _ => trivial)
  rintro tr s a s' - hlawful - hs
  obtain ⟨hexec⟩ := hs
  cases exec_effect hexec with
  | @initialized admin rate hnone hrate ha =>
    exact .inr ⟨[], s, _, tr, rfl, .inl ⟨admin, ha, rfl, hnone, hrate⟩, by simp⟩
  | @rateSet admin rate hadmin hrate ha =>
    exact .inr ⟨[], s, _, tr, rfl, .inr ⟨admin, ha, rfl, hadmin, hrate⟩, by simp⟩
  | maxSet hadmin ha => exact hlawful.keep Iff.rfl rfl (by simp [SetsRate])
  | proposed hadmin ha => exact hlawful.keep Iff.rfl rfl (by simp [SetsRate])
  | accepted hpending ha hold =>
    exact hlawful.keep (iff_of_false (by simp [OracleState.publish]) (by simp [hold])) rfl
      (by simp [SetsRate])

/-- The step does not lower the ceiling below the rate of the moment. -/
def SparesRate (s : OracleState) (a : OracleAction) : Prop :=
  ∀ maxRateBps, a.call = .setMaxRate maxRateBps → getCurrentYieldBps s ≤ maxRateBps

/-- The rate stays within the ceiling all along exactly the runs in which no call lowers the
    ceiling below the rate of the moment. -/
theorem withinCeiling_iff (h : Run OracleStep .fresh tr t) :
    AlongRun (fun _ s => getCurrentYieldBps s ≤ getMaxYieldBps s) tr t ↔
      EachStep (fun _ s a => SparesRate s a) tr := by
  refine h.alongRun_iff (by decide) ?_
  intro tr s a s' _ hwithin hs
  obtain ⟨hexec⟩ := hs
  cases exec_effect hexec with
  | @initialized admin rate hnone hrate ha => exact iff_of_true hrate (by simp [SparesRate])
  | @rateSet admin rate hadmin hrate ha => exact iff_of_true hrate (by simp [SparesRate])
  | @maxSet admin maxRate hadmin ha =>
    constructor
    · rintro hle _ ⟨⟩
      exact hle
    · intro hspares
      exact hspares maxRate rfl
  | proposed hadmin ha => exact iff_of_true hwithin (by simp [SparesRate])
  | accepted hpending ha hold => exact iff_of_true hwithin (by simp [SparesRate])

/-! ## The admin -/

/-- The role of the oracle's admin. -/
def adminRole : Role OracleState OracleAction Address where
  holder s := s.admin
  offered s := s.pendingAdmin
  consents a p := p ∈ a.auths
  appoints a p := ∃ rate, a.call = .initializeOracle p rate
  offers a q := a.call = .proposeAdmin q
  accepts a := a.call = .acceptAdmin

theorem OracleStep.moves (hs : OracleStep s a s') : adminRole.Moves s a s' := by
  obtain ⟨hexec⟩ := hs
  cases exec_effect hexec with
  | @initialized admin rate hnone hrate ha =>
    exact .appointed ⟨rate, rfl⟩ ha hnone rfl rfl (by simp [adminRole])
  | rateSet _ _ _ => exact .kept rfl rfl (by simp [adminRole])
  | maxSet _ _ => exact .kept rfl rfl (by simp [adminRole])
  | @proposed admin newAdmin hadmin ha =>
    exact @Role.Moves.offered _ _ _ adminRole s _ _ admin newAdmin rfl ha hadmin hadmin rfl
  | @accepted oldAdmin pending hpending ha hold =>
    exact @Role.Moves.accepted _ _ _ adminRole s _ _ oldAdmin pending rfl ha hold hpending rfl rfl

theorem fresh_vacant : adminRole.Vacant .fresh := ⟨rfl, rfl⟩

/-! ## Executing calls -/

/-- The step of a call that succeeds. -/
def perform (a : OracleAction) (s : OracleState) : Option (OracleAction × OracleState) :=
  (exec a.auths a.call s).toOption.map fun s' => (a, s')

theorem perform_step (a : OracleAction) (s : OracleState) (b : OracleAction) (s' : OracleState)
    (h : perform a s = some (b, s')) : OracleStep s b s' := by
  obtain ⟨u, hu, heq⟩ := Option.map_eq_some_iff.mp h
  cases heq
  exact .call (Fallible.toOption_eq_some.mp hu)

/-- A property decided on executed calls holds of some run. -/
theorem exists_oracleRun (calls : List OracleAction) {s : OracleState}
    {P : List (OracleState × OracleAction) → OracleState → Prop}
    (h : ∃ r ∈ replay perform calls [] s, P r.1 r.2) :
    ∃ tr t, Run OracleStep s tr t ∧ P tr t :=
  exists_run_of_replay perform_step h

/-- At each point of a run the oracle answers 0 before it is initialized, and else the rate
    last set, which the admin of that moment authorized and which was within the ceiling of
    that moment; and the rate is within the ceiling all along exactly the runs in which no
    call lowers the ceiling below the rate. -/
theorem rate_bounded (h : Run OracleStep .fresh tr t) : AlongRun RateLawful tr t ∧
    (AlongRun (fun _ s => getCurrentYieldBps s ≤ getMaxYieldBps s) tr t ↔
      EachStep (fun _ s a => SparesRate s a) tr) :=
  ⟨rateLawful_of_run h, withinCeiling_iff h⟩

/-- An oracle whose ceiling is raised above the default, and whose rate follows. -/
theorem rate_bounded_raised : ∃ tr t, Run OracleStep .fresh tr t ∧ getCurrentYieldBps t = 6000 ∧
    AlongRun RateLawful tr t ∧
    (AlongRun (fun _ s => getCurrentYieldBps s ≤ getMaxYieldBps s) tr t ↔
      EachStep (fun _ s a => SparesRate s a) tr) := by
  obtain ⟨tr, t, hrun, hrate⟩ : ∃ tr t, Run OracleStep .fresh tr t ∧
      getCurrentYieldBps t = 6000 :=
    exists_oracleRun [⟨[⟨10⟩], .initializeOracle ⟨10⟩ 500⟩, ⟨[⟨10⟩], .setMaxRate 7000⟩,
      ⟨[⟨10⟩], .setYieldBps 6000⟩] (by decide)
  exact ⟨tr, t, hrun, hrate, rate_bounded hrun⟩

end Runs

end InverseArena.Oracle
