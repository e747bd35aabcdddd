import InverseArena.Library.Doubles
import InverseArena.Library.Transition
import Mathlib.Data.List.Basic
import Mathlib.Logic.Function.Basic

/-!
# The circuit breaker

`backend/src/utils/circuitBreaker.ts`, with any number of calls under way at once. A call of
`fire` is one step up to its `await`; its completion (a result, an error or the timeout,
whichever comes first) is another. Every step that reads the clock has a time of its own.
The listeners, which log and count, do not act on the breaker and are left out.

Results:
* `errorRate_mono`: one more failure does not lower the error rate, rounding included.
* `fire_guarded`: an open breaker starts no action before its time.
* `state_onFailure`: when the breaker is open after a failure.
* `breaker_iff`: in which runs every failure of a call admitted half-open leaves the breaker
  open, and no action is started early.
* `breaker_of_timely`: a condition on the successes alone that is enough.
-/

namespace InverseArena.Backend

open Transition Doubles

/-! ## `circuitBreaker.ts` -/

/-- `CircuitState`. -/
inductive CircuitState where
  | closed
  | opened
  | halfOpen
  deriving DecidableEq, Repr

/-- `CircuitBreakerOptions`; the timeout is one of the ways to fail. -/
structure CircuitBreakerOptions where
  errorThresholdPercentage : ℚ
  resetTimeout : ℚ
  volumeThreshold : ℚ
  deriving Repr

/-- The fields of `CircuitBreaker` that change. -/
structure CircuitBreaker where
  state : CircuitState
  failures : ℕ
  successes : ℕ
  lastFailureTime : Option ℤ
  deriving DecidableEq, Repr

/-- `(failures / total) * 100`, each operation rounded. -/
def errorRate (failures total : ℕ) : ℚ := nearest (nearest ((failures : ℚ) / total) * 100)

namespace CircuitBreaker

/-- A new `CircuitBreaker`. -/
def new : CircuitBreaker := ⟨.closed, 0, 0, none⟩

/-- `transitionTo(next)`. -/
def transitionTo (breaker : CircuitBreaker) (next : CircuitState) : CircuitBreaker :=
  if breaker.state = next then breaker else { breaker with state := next }

/-- `reset()`. -/
def reset (breaker : CircuitBreaker) : CircuitBreaker :=
  { breaker with failures := 0, successes := 0 }

/-- `onSuccess()`. -/
def onSuccess (breaker : CircuitBreaker) : CircuitBreaker :=
  let breaker := { breaker with successes := breaker.successes + 1 }
  if breaker.state = .halfOpen then (breaker.transitionTo .closed).reset else breaker

/-- `onFailure()`, at the time `now`. -/
def onFailure (options : CircuitBreakerOptions) (now : ℤ) (breaker : CircuitBreaker) :
    CircuitBreaker :=
  let breaker := { breaker with
    failures := breaker.failures + 1
    lastFailureTime := some now }
  let total : ℕ := breaker.failures + breaker.successes
  if (total : ℚ) < options.volumeThreshold then breaker
  else if options.errorThresholdPercentage ≤ errorRate breaker.failures total then
    breaker.transitionTo .opened
  else breaker

/-- `shouldAttemptReset()`, at the time `now`; the time 0 counts as none. -/
def shouldAttemptReset (options : CircuitBreakerOptions) (now : ℤ) (breaker : CircuitBreaker) :
    Bool :=
  match breaker.lastFailureTime with
  | none => false
  | some lastFailureTime =>
    if lastFailureTime = 0 then false else options.resetTimeout ≤ ((now - lastFailureTime : ℤ) : ℚ)

/-- What `fire` does before the action (lines 37-43); `none` where it throws
    `CircuitOpenError`. -/
def startFire (options : CircuitBreakerOptions) (now : ℤ) (breaker : CircuitBreaker) :
    Option CircuitBreaker :=
  if breaker.state = .opened then
    if breaker.shouldAttemptReset options now then some (breaker.transitionTo .halfOpen) else none
  else some breaker

end CircuitBreaker

open CircuitBreaker

/-! ## Calls under way -/

/-- A breaker with the calls whose actions have been started. -/
structure Breaking where
  breaker : CircuitBreaker
  /-- The state in which each call under way was admitted. -/
  underWay : ℕ → Option CircuitState
  /-- The calls whose actions have been invoked, the last one first. -/
  invoked : List ℕ

def Breaking.initial : Breaking := ⟨.new, fun _ => none, []⟩

/-- The steps of the calls. -/
inductive BreakerStep where
  | fire (call : ℕ) (now : ℤ)
  | succeed (call : ℕ)
  | fail (call : ℕ) (now : ℤ)
  deriving DecidableEq, Repr

/-- What a step leads to; `none` where it cannot be taken. -/
def BreakerStep.next (options : CircuitBreakerOptions) : BreakerStep → Breaking → Option Breaking
  | .fire call now, s =>
    if s.underWay call = none then
      match s.breaker.startFire options now with
      | none => some s
      | some breaker => some
          { breaker := breaker
            underWay := Function.update s.underWay call (some breaker.state)
            invoked := call :: s.invoked }
    else none
  | .succeed call, s =>
    if s.underWay call = none then none
    else some
      { s with
        breaker := s.breaker.onSuccess
        underWay := Function.update s.underWay call none }
  | .fail call now, s =>
    if s.underWay call = none then none
    else some
      { s with
        breaker := s.breaker.onFailure options now
        underWay := Function.update s.underWay call none }

/-- A step of the system. -/
def BreakerStep.Leads (options : CircuitBreakerOptions) (s : Breaking) (a : BreakerStep)
    (u : Breaking) : Prop :=
  a.next options s = some u

/-! ## What is asked of a step -/

/-- The last failure is less than `resetTimeout` ago. -/
def CircuitBreaker.Resting (options : CircuitBreakerOptions) (now : ℤ) (breaker : CircuitBreaker) :
    Prop :=
  ∃ lastFailureTime ∈ breaker.lastFailureTime,
    ((now - lastFailureTime : ℤ) : ℚ) < options.resetTimeout

/-- No action is invoked while the breaker is open and rests, and the failure of a call
    admitted half-open leaves the breaker open. -/
def Guards (options : CircuitBreakerOptions) (s : Breaking) : BreakerStep → Breaking → Prop
  | .fire _ now, u =>
    s.breaker.state = .opened → s.breaker.Resting options now → u.invoked = s.invoked
  | .succeed _, _ => True
  | .fail call _, u => s.underWay call = some .halfOpen → u.breaker.state = .opened

/-- The last step of a history has been guarded. -/
def GuardedStep (options : CircuitBreakerOptions) : List (Breaking × BreakerStep) → Breaking → Prop
  | [], _ => True
  | (s, a) :: _, u => Guards options s a u

/-- One more failure makes the volume and the error rate that open the breaker. -/
def CircuitBreaker.Trips (options : CircuitBreakerOptions) (breaker : CircuitBreaker) : Prop :=
  options.volumeThreshold ≤ ((breaker.failures + 1 + breaker.successes : ℕ) : ℚ) ∧
    options.errorThresholdPercentage ≤
      errorRate (breaker.failures + 1) (breaker.failures + 1 + breaker.successes)

/-- A call that was admitted half-open fails only where the breaker is open already, or
    the failure opens it. -/
def FailsOpen (options : CircuitBreakerOptions) (s : Breaking) : BreakerStep → Prop
  | .fail call _ => s.underWay call = some .halfOpen →
      s.breaker.state = .opened ∨ s.breaker.Trips options
  | .fire .. | .succeed _ => True

/-- A call succeeds only while the breaker is closed, or half-open and no other call
    admitted half-open is under way. -/
def Timely (s : Breaking) : BreakerStep → Prop
  | .succeed call => s.breaker.state ≠ .opened ∧
      (s.breaker.state = .halfOpen → ∀ other ≠ call, s.underWay other ≠ some .halfOpen)
  | .fire .. | .fail .. => True

variable {options : CircuitBreakerOptions} {breaker : CircuitBreaker} {s u : Breaking}
variable {a : BreakerStep} {tr : List (Breaking × BreakerStep)} {now : ℤ}

/-! ## Single steps of the breaker -/

@[simp] theorem state_transitionTo (next : CircuitState) :
    (breaker.transitionTo next).state = next := by
  unfold transitionTo
  split_ifs with h
  · exact h
  · rfl

/-- Rounding does not turn the order of two error rates around. -/
theorem errorRate_mono {failures total failures' total' : ℕ}
    (h : (failures : ℚ) / total ≤ (failures' : ℚ) / total') :
    errorRate failures total ≤ errorRate failures' total' := by
  have hpos : (0 : ℚ) ≤ (failures : ℚ) / total :=
    div_nonneg (Nat.cast_nonneg _) (Nat.cast_nonneg _)
  refine nearest_mono (mul_nonneg (nearest_nonneg hpos) (by norm_num)) ?_
  exact mul_le_mul_of_nonneg_right (nearest_mono hpos h) (by norm_num)

/-- One more failure does not lower the error rate. -/
theorem errorRate_failure (failures successes : ℕ) :
    errorRate failures (failures + successes) ≤
      errorRate (failures + 1) (failures + 1 + successes) := by
  apply errorRate_mono
  rcases Nat.eq_zero_or_pos (failures + successes) with hzero | hpos
  · obtain ⟨rfl, rfl⟩ := Nat.add_eq_zero_iff.mp hzero
    norm_num
  · have hold : (0 : ℚ) < ((failures + successes : ℕ) : ℚ) := Nat.cast_pos.mpr hpos
    have hnew : (0 : ℚ) < ((failures + 1 + successes : ℕ) : ℚ) := Nat.cast_pos.mpr (by omega)
    rw [div_le_div_iff₀ hold hnew]
    have hsuccesses : (0 : ℚ) ≤ successes := Nat.cast_nonneg _
    push_cast
    linarith

/-- After a failure the breaker is open if it was, or if the failure opens it. -/
theorem state_onFailure : (breaker.onFailure options now).state = .opened ↔
    breaker.state = .opened ∨ breaker.Trips options := by
  unfold onFailure Trips
  dsimp only
  split_ifs with hvolume hrate
  · exact ⟨.inl, fun h => h.resolve_right fun ht => absurd hvolume (not_lt.mpr ht.1)⟩
  · exact iff_of_true (state_transitionTo _) (.inr ⟨not_lt.mp hvolume, hrate⟩)
  · exact ⟨.inl, fun h => h.resolve_right fun ht => hrate ht.2⟩

theorem startFire_eq_none (hopen : breaker.state = .opened) (hrests : breaker.Resting options now) :
    breaker.startFire options now = none := by
  obtain ⟨lastFailureTime, hlast, hsince⟩ := hrests
  have hstays : breaker.shouldAttemptReset options now = false := by
    unfold shouldAttemptReset
    rw [Option.mem_def.mp hlast]
    simp only [ite_eq_left_iff]
    exact fun _ => decide_eq_false (not_le.mpr hsince)
  unfold startFire
  rw [if_pos hopen, hstays]
  rfl

/-- A breaker that admits a call is as it was, or has gone from open to half-open. -/
theorem startFire_eq_some {breaker' : CircuitBreaker}
    (h : breaker.startFire options now = some breaker') :
    (breaker.state ≠ .opened ∧ breaker' = breaker) ∨
      (breaker.state = .opened ∧ breaker' = { breaker with state := .halfOpen }) := by
  unfold startFire at h
  split_ifs at h with hopen hreset
  · refine .inr ⟨hopen, ?_⟩
    rw [← Option.some.inj h, transitionTo, if_neg (by rw [hopen]; decide)]
  · exact .inl ⟨hopen, (Option.some.inj h).symm⟩

/-! ## Single steps of the system -/

theorem leads_fire {call : ℕ} (h : BreakerStep.Leads options s (.fire call now) u) :
    u = s ∨ ∃ breaker, s.breaker.startFire options now = some breaker ∧ u =
      { breaker := breaker
        underWay := Function.update s.underWay call (some breaker.state)
        invoked := call :: s.invoked } := by
  simp only [BreakerStep.Leads, BreakerStep.next] at h
  split_ifs at h
  cases hstart : s.breaker.startFire options now with
  | none =>
    rw [hstart] at h
    exact .inl (Option.some.inj h).symm
  | some breaker =>
    rw [hstart] at h
    exact .inr ⟨breaker, rfl, (Option.some.inj h).symm⟩

theorem leads_succeed {call : ℕ} (h : BreakerStep.Leads options s (.succeed call) u) :
    u = { s with
      breaker := s.breaker.onSuccess
      underWay := Function.update s.underWay call none } := by
  simp only [BreakerStep.Leads, BreakerStep.next] at h
  split_ifs at h
  exact (Option.some.inj h).symm

theorem leads_fail {call : ℕ} (h : BreakerStep.Leads options s (.fail call now) u) :
    u = { s with
      breaker := s.breaker.onFailure options now
      underWay := Function.update s.underWay call none } := by
  simp only [BreakerStep.Leads, BreakerStep.next] at h
  split_ifs at h
  exact (Option.some.inj h).symm

/-- An open breaker starts no action before its time. -/
theorem fire_guarded {call : ℕ} (hstep : BreakerStep.Leads options s (.fire call now) u)
    (hopen : s.breaker.state = .opened) (hrests : s.breaker.Resting options now) :
    u.invoked = s.invoked := by
  rcases leads_fire hstep with rfl | ⟨breaker, hstart, -⟩
  · rfl
  · rw [startFire_eq_none hopen hrests] at hstart
    cases hstart

/-! ## Which runs are guarded -/

/-- A step is guarded exactly if it does not fail a call admitted half-open without leaving
    the breaker open. -/
theorem guards_iff (hstep : BreakerStep.Leads options s a u) :
    Guards options s a u ↔ FailsOpen options s a := by
  cases a with
  | fire call now => exact iff_of_true (fire_guarded hstep) trivial
  | succeed call => exact Iff.rfl
  | fail call now =>
    rw [leads_fail hstep]
    exact imp_congr_right fun _ => state_onFailure

/-- In every interleaving no action is started before its time. All along a run the failures
    of the calls admitted half-open leave the breaker open, exactly if each of them finds it
    open or opens it by the error rate. -/
theorem breaker_iff (h : Run (BreakerStep.Leads options) .initial tr s) :
    AlongRun (GuardedStep options) tr s ↔ EachStep (fun _ => FailsOpen options) tr :=
  Run.alongRun_iff trivial (fun _ _ _ _ _ _ hstep => guards_iff hstep) h

/-! ## Runs of the breaker of Soroban -/

/-- The options of `getSorobanBreaker()`. -/
def sorobanOptions : CircuitBreakerOptions := ⟨50, 30000, 5⟩

/-- Executes a step. -/
def BreakerStep.perform (options : CircuitBreakerOptions) (a : BreakerStep) (s : Breaking) :
    Option (BreakerStep × Breaking) :=
  (a.next options s).map (a, ·)

theorem BreakerStep.perform_leads {options : CircuitBreakerOptions} (m : BreakerStep) (s : Breaking)
    (a : BreakerStep) (u : Breaking) (h : m.perform options s = some (a, u)) :
    BreakerStep.Leads options s a u := by
  obtain ⟨v, hv, heq⟩ := Option.map_eq_some_iff.mp h
  obtain ⟨rfl, rfl⟩ := Prod.mk.inj heq
  exact hv

/-- A property decided on executed steps holds of some run. -/
theorem exists_breaking {options : CircuitBreakerOptions} (steps : List BreakerStep)
    {P : List (Breaking × BreakerStep) → Breaking → Prop}
    (h : ∃ r ∈ replay (BreakerStep.perform options) steps [] .initial, P r.1 r.2) :
    ∃ tr s, Run (BreakerStep.Leads options) .initial tr s ∧ P tr s :=
  exists_run_of_replay BreakerStep.perform_leads h

instance (options : CircuitBreakerOptions) (breaker : CircuitBreaker) :
    Decidable (breaker.Trips options) :=
  inferInstanceAs (Decidable (_ ∧ _))

instance (options : CircuitBreakerOptions) (s : Breaking) :
    (a : BreakerStep) → Decidable (FailsOpen options s a)
  | .fail call _ => inferInstanceAs (Decidable (s.underWay call = some .halfOpen → _ ∨ _))
  | .fire .. | .succeed _ => isTrue trivial

/-- Calls that are all under way before the first of them fails, of which five fail at once. -/
def failures (calls : ℕ) : List BreakerStep :=
  (List.range calls).map (.fire · 1000) ++ (List.range 5).map (.fail · 2000)

/-- A probe that fails opens the breaker again. -/
theorem breaker_iff_reopened : ∃ tr s, Run (BreakerStep.Leads sorobanOptions) .initial tr s ∧
    s.breaker.state = .opened ∧ tr.length = 12 ∧ AlongRun (GuardedStep sorobanOptions) tr s := by
  obtain ⟨tr, s, hrun, heach, hopen, hlength⟩ : ∃ tr s,
      Run (BreakerStep.Leads sorobanOptions) .initial tr s ∧
        EachStep (fun _ => FailsOpen sorobanOptions) tr ∧ s.breaker.state = .opened ∧
          tr.length = 12 :=
    exists_breaking (failures 5 ++ [.fire 5 40000, .fail 5 41000]) (by decide +kernel)
  exact ⟨tr, s, hrun, hopen, hlength, (breaker_iff hrun).mpr heach⟩

/-- Of twelve calls five fail, which opens the breaker, and seven succeed after that. The
    probe then fails with an error rate of 6 / 13, and the breaker stays half-open. -/
theorem not_breaker_guarded : ¬ ∀ options tr s, Run (BreakerStep.Leads options) .initial tr s →
    AlongRun (GuardedStep options) tr s := by
  intro hall
  obtain ⟨tr, s, hrun, hprobe, hhalf⟩ : ∃ tr s,
      Run (BreakerStep.Leads sorobanOptions) .initial tr s ∧
        (tr.head?.map fun e => (e.1.underWay 12, e.2)) =
          some (some .halfOpen, .fail 12 41000) ∧ s.breaker.state = .halfOpen :=
    exists_breaking
      (failures 12 ++ (List.range' 5 7).map .succeed ++ [.fire 12 40000, .fail 12 41000])
      (by decide +kernel)
  cases tr with
  | nil => cases hprobe
  | cons e tr =>
    obtain ⟨hwas, hfail⟩ := Prod.mk.inj (Option.some.inj hprobe)
    have hguarded : Guards sorobanOptions e.1 e.2 s := (hall sorobanOptions _ s hrun).1
    rw [hfail] at hguarded
    have hopen := hguarded hwas
    rw [hhalf] at hopen
    cases hopen

/-! ## Successes that come in time -/

/-- What holds while no success comes late: a breaker that is not closed has the error rate
    that has opened it, and no call admitted half-open is under way while it is closed. -/
structure Primed (options : CircuitBreakerOptions) (s : Breaking) : Prop where
  rate : s.breaker.state ≠ .closed →
    options.volumeThreshold ≤ ((s.breaker.failures + s.breaker.successes : ℕ) : ℚ) ∧
      options.errorThresholdPercentage ≤
        errorRate s.breaker.failures (s.breaker.failures + s.breaker.successes)
  probes : ∀ call, s.underWay call = some .halfOpen → s.breaker.state ≠ .closed

theorem Primed.initial : Primed options .initial where
  rate h := absurd rfl h
  probes _ h := nomatch h

/-- A primed breaker that is not closed is opened by a failure. -/
theorem Primed.trips (h : Primed options s) (hstate : s.breaker.state ≠ .closed) :
    s.breaker.Trips options := by
  obtain ⟨hvolume, hrate⟩ := h.rate hstate
  refine ⟨hvolume.trans ?_, hrate.trans (errorRate_failure _ _)⟩
  exact_mod_cast Nat.add_le_add_right (Nat.le_succ _) _

theorem Primed.failsOpen (h : Primed options s) (a : BreakerStep) : FailsOpen options s a := by
  cases a with
  | fire => trivial
  | succeed => trivial
  | fail call now => exact fun hprobe => .inr (h.trips (h.probes call hprobe))

theorem Primed.fire {call : ℕ} (h : Primed options s)
    (hstep : BreakerStep.Leads options s (.fire call now) u) : Primed options u := by
  rcases leads_fire hstep with rfl | ⟨breaker, hstart, rfl⟩
  · exact h
  · rcases startFire_eq_some hstart with ⟨-, rfl⟩ | ⟨hopen, rfl⟩
    · refine ⟨h.rate, fun other hother => ?_⟩
      change Function.update s.underWay call (some s.breaker.state) other = _ at hother
      by_cases heq : other = call
      · subst heq
        rw [Function.update_self] at hother
        show s.breaker.state ≠ .closed
        rw [Option.some.inj hother]
        decide
      · rw [Function.update_of_ne heq] at hother
        exact h.probes other hother
    · exact ⟨fun _ => h.rate (by rw [hopen]; decide), fun _ _ => CircuitState.noConfusion⟩

/-- A call that is under way after another has completed was so before. -/
theorem underWay_of_completed {underWay : ℕ → Option CircuitState} {call other : ℕ}
    {state : CircuitState} (h : Function.update underWay call none other = some state) :
    other ≠ call ∧ underWay other = some state := by
  have hne : other ≠ call := by
    rintro rfl
    rw [Function.update_self] at h
    cases h
  exact ⟨hne, by rwa [Function.update_of_ne hne] at h⟩

/-- A success in time leaves the breaker closed, with no call admitted half-open. -/
theorem Primed.succeed {call : ℕ} (h : Primed options s) (htimely : Timely s (.succeed call))
    (hstep : BreakerStep.Leads options s (.succeed call) u) : Primed options u := by
  obtain ⟨hopen, halone⟩ := htimely
  rw [leads_succeed hstep]
  have hclosed : s.breaker.onSuccess.state = .closed := by
    cases hstate : s.breaker.state with
    | closed => simp [onSuccess, hstate]
    | opened => exact absurd hstate hopen
    | halfOpen => simp [onSuccess, hstate, reset]
  refine ⟨fun hstate => absurd hclosed hstate, fun other hother => ?_⟩
  obtain ⟨hne, hprobe⟩ := underWay_of_completed hother
  cases hstate : s.breaker.state with
  | closed => exact absurd hstate (h.probes other hprobe)
  | opened => exact absurd hstate hopen
  | halfOpen => exact absurd hprobe (halone hstate other hne)

/-- What a failure counts, and that it closes no breaker. -/
theorem onFailure_counts : (breaker.onFailure options now).failures = breaker.failures + 1 ∧
    (breaker.onFailure options now).successes = breaker.successes ∧
      ((breaker.onFailure options now).state = breaker.state ∨
        (breaker.onFailure options now).state = .opened) := by
  unfold onFailure
  dsimp only
  split_ifs
  · exact ⟨rfl, rfl, .inl rfl⟩
  · refine ⟨?_, ?_, .inr (state_transitionTo _)⟩ <;> unfold transitionTo <;> split_ifs <;> rfl
  · exact ⟨rfl, rfl, .inl rfl⟩

theorem Primed.fail {call : ℕ} (h : Primed options s)
    (hstep : BreakerStep.Leads options s (.fail call now) u) : Primed options u := by
  rw [leads_fail hstep]
  obtain ⟨hfailures, hsuccesses, hstate⟩ :=
    @onFailure_counts options s.breaker now
  constructor
  · intro hopen
    show options.volumeThreshold ≤ (((s.breaker.onFailure options now).failures +
      (s.breaker.onFailure options now).successes : ℕ) : ℚ) ∧ _
    rw [hfailures, hsuccesses]
    by_cases hclosed : s.breaker.state = .closed
    · -- Only the error rate opens a closed breaker.
      have hopened := hstate.resolve_left fun hsame => hopen (hsame.trans hclosed)
      exact (state_onFailure.mp hopened).resolve_left (by rw [hclosed]; decide)
    · exact h.trips hclosed
  · intro other hother hclosed
    have hkept : s.breaker.state ≠ .closed := h.probes other (underWay_of_completed hother).2
    rcases hstate with hsame | hopened
    · exact hkept (hsame.symm.trans hclosed)
    · rw [hopened] at hclosed
      cases hclosed

/-- While no call succeeds in an open breaker, nor closes one in which another call admitted
    half-open is under way, every failure of such a call leaves the breaker open. -/
theorem breaker_of_timely (h : Run (BreakerStep.Leads options) .initial tr s)
    (htimely : EachStep (fun _ => Timely) tr) : AlongRun (GuardedStep options) tr s := by
  have hall : EachStep (fun _ => FailsOpen options) tr ∧ Primed options s := by
    induction h with
    | nil => exact ⟨trivial, .initial⟩
    | @snoc tr t a u _ hstep ih =>
      obtain ⟨heach, hprimed⟩ := ih htimely.2
      refine ⟨⟨hprimed.failsOpen a, heach⟩, ?_⟩
      cases a with
      | fire call now => exact hprimed.fire hstep
      | succeed call => exact hprimed.succeed htimely.1 hstep
      | fail call now => exact hprimed.fail hstep
  exact (breaker_iff h).mpr hall.1

end InverseArena.Backend
