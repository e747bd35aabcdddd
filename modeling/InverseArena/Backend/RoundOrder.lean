import InverseArena.Backend.Replay
import InverseArena.Backend.Unsent

/-!
# The order of a round's states

`resolveAtomically` updates a round only while it is OPEN or CLOSED. `closeRound`
reads the round, checks that it is OPEN and then updates it whatever it has
become. As the service is, no resolution comes in between. With a service that could
submit, `closeRound` could put a resolved round back to CLOSED, and another call
could resolve it again.

Results:
* `round_order`: as the service is, the states of a round move forward, and its logs
  are those of one resolution.
* `round_order_iff`: for any service, they do so in exactly the runs in which no round
  is closed after it has been resolved.
-/

namespace InverseArena.Backend

open Async Transition

variable {N H : Type}

/-- The position of a state in OPEN, CLOSED, RESOLVED, SETTLED. -/
def RoundState.rank : RoundState → ℕ
  | OPEN => 0
  | CLOSED => 1
  | RESOLVED => 2
  | SETTLED => 3

/-- The state of a stored round. -/
def stateOf (t : RoundSystem N H) (roundId : String) : Option RoundState :=
  (t.shared.db.rounds roundId).map (·.state)

/-- The number of steps that have written logs of the round. -/
def logWrites (roundId : String) : List (RoundSystem N H × RoundEvent N H) → RoundSystem N H → ℕ
  | [], _ => 0
  | e :: tr, t =>
    logWrites roundId tr e.1 +
      if t.shared.db.logsOf roundId = e.1.shared.db.logsOf roundId then 0 else 1

/-- The last step has not moved the round backwards. -/
def Forward (roundId : String) :
    List (RoundSystem N H × RoundEvent N H) → RoundSystem N H → Prop
  | [], _ => True
  | e :: _, t => ∀ state ∈ stateOf e.1 roundId, ∀ state' ∈ stateOf t roundId,
    state.rank ≤ state'.rank

/-- Nothing has been logged for the round before it is resolved; from then on its
    logs are those of the resolution stored with it, written at once if since `tr`. -/
def LoggedOnce (roundId : String) (tr : List (RoundSystem N H × RoundEvent N H))
    (t : RoundSystem N H) : Prop :=
  ∃ row, t.shared.db.rounds roundId = some row ∧
    (row.state.resolvable = true ∧ logWrites roundId tr t = 0 ∧
        t.shared.db.logsOf roundId = [] ∨
      row.state.resolvable = false ∧ logWrites roundId tr t ≤ 1 ∧ ∃ metadata resolution,
        row.metadata = some metadata ∧ metadata.resolution = some resolution ∧
        t.shared.db.logsOf roundId = eliminationLogs roundId resolution.eliminatedPlayers)

/-- The round has moved forward, and it has been logged by one resolution. -/
def Orderly (roundId : String) (tr : List (RoundSystem N H × RoundEvent N H))
    (t : RoundSystem N H) : Prop :=
  Forward roundId tr t ∧ LoggedOnce roundId tr t

/-- An update that closes the round takes effect only while it is OPEN or CLOSED. -/
def ClosesInTime (roundId : String) (_ : List (RoundSystem N H × RoundEvent N H))
    (t : RoundSystem N H) (ev : RoundEvent N H) : Prop :=
  RoundEvent.effective ev = some (.updateRound roundId .CLOSED) →
    ∀ state ∈ stateOf t roundId, state.resolvable = true

variable {w : Platform N H} {t u : RoundSystem N H} {ev : RoundEvent N H}
variable {tr : List (RoundSystem N H × RoundEvent N H)} {roundId : String}

/-! ## One step -/

theorem logsOf_eq_of_append {d d' : Database N} {logs : List EliminationLog}
    (h : d'.eliminationLogs = d.eliminationLogs ++ logs) :
    d'.logsOf roundId = d.logsOf roundId ++ logs.filter (·.roundId = roundId) := by
  unfold Database.logsOf
  rw [h, List.filter_append]

theorem filter_eliminationLogs_self (eliminated : List String) :
    (eliminationLogs roundId eliminated).filter (·.roundId = roundId) =
      eliminationLogs roundId eliminated := by
  refine List.filter_eq_self.mpr fun log hlog => ?_
  obtain ⟨userId, -, rfl⟩ := List.mem_map.mp hlog
  exact decide_eq_true rfl

theorem filter_eliminationLogs_of_ne {roundId' : String} (hne : roundId' ≠ roundId)
    (eliminated : List String) :
    (eliminationLogs roundId' eliminated).filter (·.roundId = roundId) = [] := by
  refine List.filter_eq_nil_iff.mpr fun log hlog => ?_
  obtain ⟨userId, -, rfl⟩ := List.mem_map.mp hlog
  exact fun h => hne (of_decide_eq_true h)

theorem logWrites_of_eq (h : u.shared.db.logsOf roundId = t.shared.db.logsOf roundId) :
    logWrites roundId ((t, ev) :: tr) u = logWrites roundId tr t := by
  show logWrites roundId tr t + (if _ then 0 else 1) = _
  rw [if_pos h, Nat.add_zero]

theorem logWrites_le : logWrites roundId ((t, ev) :: tr) u ≤ logWrites roundId tr t + 1 := by
  show logWrites roundId tr t + (if _ then 0 else 1) ≤ _
  split_ifs <;> omega

theorem stateOf_eq {row : RoundRow N} (h : t.shared.db.rounds roundId = some row) :
    stateOf t roundId = some row.state := by
  unfold stateOf
  rw [h]
  rfl

/-- The round moves forward when its state does. -/
theorem forward_of_le {row row' : RoundRow N} (hrow : t.shared.db.rounds roundId = some row)
    (hrow' : u.shared.db.rounds roundId = some row') (hle : row.state.rank ≤ row'.state.rank) :
    Forward roundId ((t, ev) :: tr) u := by
  intro state hs state' hs'
  rw [stateOf_eq hrow] at hs
  rw [stateOf_eq hrow'] at hs'
  cases hs
  cases hs'
  exact hle

theorem RoundState.resolvable_iff_rank {state : RoundState} :
    state.resolvable = true ↔ state.rank ≤ 1 := by
  cases state with
  | _ => decide

/-- A step that leaves the row and the logs of the round alone. -/
theorem Orderly.unrelated (h : Orderly roundId tr t)
    (hrow : u.shared.db.rounds roundId = t.shared.db.rounds roundId)
    (hlogs : u.shared.db.logsOf roundId = t.shared.db.logsOf roundId) :
    Orderly roundId ((t, ev) :: tr) u := by
  obtain ⟨-, row, hrow', hlogged⟩ := h
  refine ⟨forward_of_le hrow' (hrow.trans hrow') (Nat.le_refl _), row, hrow.trans hrow', ?_⟩
  rw [logWrites_of_eq hlogs, hlogs]
  exact hlogged

/-- Closing a round keeps the order exactly when the round was not resolved. -/
theorem orderly_closes_iff (h : Orderly roundId tr t)
    (hcloses : Closes t.shared.db u.shared.db roundId) :
    Orderly roundId ((t, ev) :: tr) u ↔ ∀ state ∈ stateOf t roundId, state.resolvable = true := by
  obtain ⟨-, row, hrow, hlogged⟩ := h
  obtain ⟨row', hrow', hrounds⟩ := hcloses.rounds
  obtain rfl : row = row' := Option.some.inj (hrow.symm.trans hrow')
  have hclosed : u.shared.db.rounds roundId = some { row with state := .CLOSED } := by
    rw [hrounds, Function.update_self]
  have hlogs : u.shared.db.logsOf roundId = t.shared.db.logsOf roundId := by
    unfold Database.logsOf
    rw [hcloses.eliminationLogs]
  have hwrites := @logWrites_of_eq _ _ t u ev tr roundId hlogs
  rw [stateOf_eq hrow]
  obtain ⟨hres, hzero, hnil⟩ | ⟨hresolved, -⟩ := hlogged
  · refine iff_of_true ⟨?_, _, hclosed, .inl ⟨rfl, hwrites.trans hzero, hlogs.trans hnil⟩⟩ ?_
    · exact forward_of_le hrow hclosed (RoundState.resolvable_iff_rank.mp hres)
    · intro state hs
      cases hs
      exact hres
  · refine iff_of_false ?_ ?_
    · rintro ⟨hforward, -⟩
      have hle := hforward row.state (stateOf_eq hrow) .CLOSED (stateOf_eq hclosed)
      rw [RoundState.resolvable_iff_rank.mpr hle] at hresolved
      cases hresolved
    · intro hall
      have hres := hall row.state rfl
      rw [hresolved] at hres
      cases hres

/-- A committed resolution keeps the order. -/
theorem Orderly.resolves {eliminated : List String} (h : Orderly roundId tr t)
    (hres : Resolves Anything t.shared.db u.shared.db roundId eliminated) :
    Orderly roundId ((t, ev) :: tr) u := by
  obtain ⟨-, row, hrow, hlogged⟩ := h
  obtain ⟨row₀, hrow₀, hresolvable⟩ := hres.resolvable
  obtain rfl : row = row₀ := Option.some.inj (hrow.symm.trans hrow₀)
  obtain ⟨row', metadata, resolution, hrounds, hresolved, hmeta, hresolution, helim⟩ := hres.rounds
  have hrow' : u.shared.db.rounds roundId = some row' := by rw [hrounds, Function.update_self]
  have hlogs : u.shared.db.logsOf roundId = _ := logsOf_eq_of_append hres.eliminationLogs
  rw [filter_eliminationLogs_self] at hlogs
  obtain ⟨-, hzero, hnil⟩ | ⟨hstate, -⟩ := hlogged
  · rw [hnil, List.nil_append] at hlogs
    have hle : row.state.rank ≤ row'.state.rank := by
      have hrank := RoundState.resolvable_iff_rank.mp hresolvable
      rw [hresolved]
      exact Nat.le_succ_of_le hrank
    have hwrites : logWrites roundId ((t, ev) :: tr) u ≤ 1 := by
      have hsucc := @logWrites_le _ _ t u ev tr roundId
      omega
    exact ⟨forward_of_le hrow hrow' hle, row', hrow', .inr ⟨by rw [hresolved]; rfl, hwrites,
      metadata, resolution, hmeta, hresolution, by rw [hlogs, helim]⟩⟩
  · rw [hstate] at hresolvable
    cases hresolvable

variable [JsNumber N] {svc : Service} {net : Network H}

theorem Orderly.step (ht : TidySystem t) (h : Orderly roundId tr t)
    (hs : RoundStep svc net t ev u) :
    Orderly roundId ((t, ev) :: tr) u ↔ ClosesInTime roundId tr t ev := by
  have hrows := RoundStep.rows ht hs
  unfold ClosesInTime
  generalize RoundEvent.effective ev = q at hrows
  cases hrows with
  | same hupdate _ hsame =>
    refine iff_of_true (h.unrelated (congrFun hsame.rounds _) ?_) fun hq => absurd hq (hupdate _ _)
    unfold Database.logsOf
    rw [hsame.eliminationLogs]
  | @closes roundId' hcloses =>
    by_cases hid : roundId' = roundId
    · subst hid
      rw [orderly_closes_iff h hcloses]
      exact ⟨fun hall _ => hall, fun hall => hall rfl⟩
    · refine iff_of_true (h.unrelated ?_ ?_) fun hq => ?_
      · obtain ⟨row, -, hrounds⟩ := hcloses.rounds
        rw [hrounds, Function.update_of_ne (Ne.symm hid)]
      · unfold Database.logsOf
        rw [hcloses.eliminationLogs]
      · cases hq
        exact absurd rfl hid
  | @resolves roundId' eliminated hres =>
    refine iff_of_true ?_ fun hq => nomatch hq
    by_cases hid : roundId' = roundId
    · subst hid
      exact h.resolves hres
    · obtain ⟨row, _, _, hrounds, -⟩ := hres.rounds
      refine h.unrelated ?_ ?_
      · rw [hrounds, Function.update_of_ne (Ne.symm hid)]
      · rw [logsOf_eq_of_append hres.eliminationLogs, filter_eliminationLogs_of_ne hid,
          List.append_nil]

/-- Without resolutions, what `closeRound` has checked stays to be resolved. -/
theorem closesInTime_of_unsent {d : Database N} (h : UnsentSystem net d t)
    (hs : RoundStep svc net t ev u) : ClosesInTime roundId tr t ev := by
  intro heffective
  cases hs with
  | start _ => cases heffective
  | moved _ => cases heffective
  | @reply i s' r k hi hr =>
    obtain ⟨gs, g, hinv, hg, hallowed⟩ := h.request hi
    rw [Reply.request_of_effective heffective] at hallowed
    obtain ⟨rfl, -⟩ := hallowed
    obtain ⟨row, hrow, hres⟩ := hinv.checked i roundId hg
    intro state hstate
    rw [stateOf_eq hrow] at hstate
    cases hstate
    exact hres

/-! ## Whole runs -/

/-- From a round that is untouched, or resolved and logged, in every interleaving of
    any calls: its states only move forward and its logs are those of one resolution
    exactly as long as no update of `closeRound` takes effect on a round that is
    resolved already. -/
theorem round_order_iff (hidle : ∀ i, w.db.transactions i = none)
    (hstart : LoggedOnce roundId [] (.idle w : RoundSystem N H))
    (hrun : Run (RoundStep svc net) (.idle w) tr t) :
    AlongRun (Orderly roundId) tr t ↔ EachStep (ClosesInTime roundId) tr :=
  hrun.alongRun_iff ⟨trivial, hstart⟩ fun _ _ _ _ hr h hs => h.step (tidy_of_run hidle hr) hs

/-- From a round that is untouched, or resolved and logged, in every interleaving of
    any calls of the service as it is: its states only move forward, and its logs are
    those of one resolution. -/
theorem round_order (hsend : Unsendable svc net) (hidle : ∀ i, w.db.transactions i = none)
    (hstart : LoggedOnce roundId [] (.idle w : RoundSystem N H))
    (hrun : Run (RoundStep svc net) (.idle w) tr t) : AlongRun (Orderly roundId) tr t := by
  refine hrun.alongRun_of_each (C := fun _ _ _ => True) (fun tr t hr _ => ?_)
    (.of_forall fun _ _ _ => trivial)
  exact hr.history ⟨trivial, hstart⟩ fun tr t ev u hr h hs =>
    (h.step (tidy_of_run hidle hr) hs).mpr (closesInTime_of_unsent (unsent_of_run hsend hr) hs)

/-- A call that closes the sample round reads it, a resolution fails in its
    simulation, and then the round is closed. -/
def sampleClosing :
    List (Move RoundError (RoundCall ℚ) (PlatformMove Arena.VaultState) Inclusion) :=
  [.start 0 (.closeRound sampleRound), .serve 0 .prompt, .start 1 (.resolveRound sampleInput)] ++
    List.replicate 3 (.serve 1 .prompt) ++ [.serve 0 .prompt]

theorem round_order_sample : ∃ tr t,
    Run (RoundStep sampleService sampleNet) (.idle samplePlatform) tr t ∧
      stateOf t sampleRound = some .CLOSED ∧ AlongRun (Orderly sampleRound) tr t := by
  have hreplay : ∃ r ∈ replay ((working sampleNet).perform (RoundCall.program sampleService))
      sampleClosing [] (.idle samplePlatform), stateOf r.2 sampleRound = some .CLOSED := by
    decide +kernel
  obtain ⟨tr, t, hrun, hclosed⟩ := exists_run_of_replay
    (P := fun _ t => stateOf t sampleRound = some .CLOSED)
    ((working sampleNet).perform_step) hreplay
  have huntouched : LoggedOnce sampleRound []
      (.idle samplePlatform : RoundSystem ℚ Arena.VaultState) :=
    ⟨_, sampleDatabase_round, .inl ⟨rfl, rfl, rfl⟩⟩
  exact ⟨tr, t, hrun, hclosed, round_order (.inl rfl) (fun _ => rfl) huntouched hrun⟩

end InverseArena.Backend
