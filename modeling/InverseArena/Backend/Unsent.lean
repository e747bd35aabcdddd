import InverseArena.Backend.Calls

/-!
# Resolutions that are never sent

`submitOnChainResolve` calls `Api.assembleTransaction`, which `rpc.Api` of the locked
SDK does not have (`// @ts-ignore` hides it from the compiler), and it passes one
argument to `resolve_round`, which declares none. Either is enough for it to throw
before it sends anything.

Results:
* `resolveRound_throws`: such a call asks for nothing but reads, and throws.
* `onlyClosed_of_run`: calls side by side change the rounds by closing them, at most.
-/

namespace InverseArena.Backend

open Async Transition

variable {N H : Type}

/-- The SDK cannot assemble the transaction of a resolution, or the contract does not
    take the argument that the service passes. -/
def Unsendable (svc : Service) (net : Network H) : Prop :=
  svc.assembleTransaction = none ∨ net.resolveRoundArity ≠ 1

/-! ## What the calls ask for -/

/-- Where a call stands with the round it closes: `checked` has read it as OPEN. -/
inductive Stage where
  | resolving
  | closing
  | checked (roundId : String)
  deriving DecidableEq

/-- A call may read, and close a round it has checked. -/
def Stage.allows (g : Stage) : Request N → Prop
  | .updateRound roundId state => g = .checked roundId ∧ state = .CLOSED
  | q => q.isRead = true

/-- Where a reply leaves a call. -/
def Stage.next (g : Stage) : (q : Request N) → Except RoundError (Answer N q) → Stage
  | .findRound roundId, .ok (some row) =>
    if g = .closing ∧ row.state = .OPEN then .checked roundId else g
  | _, _ => g

/-- A simulation of `resolve_round` succeeds only with a contract that takes the
    argument. -/
def Takes (net : Network H) : (q : Request N) → Answer N q → Prop
  | .simulateTransaction _ (.resolve_round _), .success _ => net.resolveRoundArity = 1
  | _, _ => True

/-- How calls speak to the database when no resolution is sent. -/
def closings (net : Network H) : Protocol (Answer N) RoundError Stage where
  allowed := Stage.allows
  answers := Takes net
  next := Stage.next

variable {net : Network H} {svc : Service} {w w' : Platform N H} {i : ℕ}

theorem serves_takes {q : Request N} {a : Answer N q} (h : (platform net).serves i q w a w') :
    (closings net).answers q a := by
  cases q with
  | simulateTransaction contractId call =>
    cases call with
    | resolve_round roundNumber =>
      match a, h with
      | .success _, h =>
        obtain ⟨⟨-, arena, haccept⟩, -⟩ := h
        exact ((resolveNow_eq_ok net).mp haccept).1
      | .error _, _ => exact trivial
      | .empty, _ => exact trivial
    | _ => exact trivial
  | _ => exact trivial

theorem closings_free :
    FreeAt Request.isRead (closings net : Protocol (Answer N) RoundError Stage) .resolving where
  allowed q hq := by
    cases q with
    | updateRound => cases hq
    | _ => exact hq
  next q a hq := by
    cases q with
    | findRound roundId =>
      match a with
      | .ok (some row) => simp [closings, Stage.next]
      | .ok none => rfl
      | .error e => rfl
    | _ => rfl

/-- A transaction that is not sendable is not sent, and the call throws. -/
theorem submitOnChainResolve_throws (hsend : Unsendable svc net) (contractId : String)
    (roundNumber : ℕ) :
    (submitOnChainResolve svc contractId roundNumber : Program N ℕ).Follows (closings net)
      .resolving fun g r => g = .resolving ∧ ∃ e, r = .error e := by
  have hnot : ¬ Sendable svc (closings net : Protocol (Answer N) RoundError Stage) contractId
      roundNumber := by
    rintro ⟨hassemble, result, harity⟩
    obtain hnone | hne := hsend
    · exact hassemble hnone
    · exact hne harity
  refine (submitOnChainResolve_follows svc closings_free fun h => absurd h hnot).mono ?_
  rintro g r ⟨rfl, hreturns⟩
  refine ⟨rfl, ?_⟩
  cases r with
  | error e => exact ⟨e, rfl⟩
  | ok n => exact absurd (hreturns ⟨n, rfl⟩) hnot

/-- A resolution asks for nothing but reads, and throws. -/
theorem resolveRound_throws [JsNumber N] (hsend : Unsendable svc net) (input : RoundInput N) :
    (resolveRound svc input).Follows (closings net) .resolving
      fun g r => g = .resolving ∧ ∃ e, r = .error e := by
  unfold resolveRound
  refine closings_free.bind rfl (fun found _ => ?_) fun e => ⟨rfl, e, rfl⟩
  rw [follows_bind, follows_orThrow]
  refine ⟨fun round _ => ?_, fun _ => ⟨rfl, _, rfl⟩⟩
  show (check _ _ >>= _).Follows _ _ _
  rw [follows_bind, follows_check]
  refine ⟨fun _ => ?_, fun _ => ⟨rfl, _, rfl⟩⟩
  show (submitOnChainResolve _ _ _ >>= _).Follows _ _ _
  rw [follows_bind]
  refine (submitOnChainResolve_throws hsend _ _).mono ?_
  rintro g r ⟨rfl, e, rfl⟩
  exact ⟨rfl, e, rfl⟩

/-- A call that closes a round has read it as OPEN before. -/
theorem closeRound_checks (roundId : String) :
    (closeRound roundId : Program N RoundState).Follows (closings net) .closing
      fun _ _ => True := by
  unfold closeRound
  rw [follows_bind]
  refine ⟨rfl, fun found _ => ?_, fun e => trivial⟩
  cases found with
  | none => exact trivial
  | some row =>
    show (check _ _ >>= _).Follows _ _ _
    rw [follows_bind, follows_check]
    refine ⟨fun hopen => ?_, fun _ => trivial⟩
    have hchecked : Stage.next .closing (.findRound roundId) (.ok (some row) :
        Except RoundError (Answer N (.findRound roundId))) = .checked roundId :=
      if_pos ⟨rfl, hopen⟩
    show (ask _ >>= _).Follows _ _ _
    rw [follows_bind]
    exact ⟨⟨hchecked, rfl⟩, fun _ _ => trivial, fun e => trivial⟩

/-- Where the call starts. -/
def RoundCall.stage : RoundCall N → Stage
  | resolveRound _ => .resolving
  | closeRound _ => .closing

theorem RoundCall.closings [JsNumber N] (hsend : Unsendable svc net) (c : RoundCall N) :
    (c.program svc).Follows (Backend.closings net) c.stage fun _ _ => True := by
  cases c with
  | resolveRound input =>
    show (Backend.resolveRound svc input >>= _).Follows _ _ _
    rw [follows_bind]
    refine (resolveRound_throws hsend input).mono ?_
    rintro g r ⟨-, e, rfl⟩
    exact trivial
  | closeRound roundId =>
    show (Backend.closeRound roundId >>= _).Follows _ _ _
    rw [follows_bind]
    refine (closeRound_checks roundId).mono fun g r _ => ?_
    cases r with
    | ok _ => exact trivial
    | error e => exact trivial

/-! ## What they change -/

/-- The rounds are as they were, but for some that were OPEN and are CLOSED. -/
structure OnlyClosed (d d' : Database N) : Prop where
  rounds : ∀ roundId, d'.rounds roundId = d.rounds roundId ∨ ∃ row,
    d.rounds roundId = some row ∧ row.state = .OPEN ∧
      d'.rounds roundId = some { row with state := .CLOSED }
  users : d'.users = d.users
  eliminationLogs : d'.eliminationLogs = d.eliminationLogs

/-- The round is OPEN or CLOSED. -/
def Database.Unresolved (d : Database N) (roundId : String) : Prop :=
  ∃ row, d.rounds roundId = some row ∧ row.state.resolvable = true

variable {d d' : Database N} {roundId : String}

theorem OnlyClosed.refl : OnlyClosed d d := ⟨fun _ => .inl rfl, rfl, rfl⟩

/-- A round that is not resolved is closed. -/
theorem OnlyClosed.of_update (hrow : d.Unresolved roundId)
    (hu : d.updateRound roundId .CLOSED = some d') : OnlyClosed d d' := by
  obtain ⟨-, row, hrow', rfl⟩ := Database.updateRound_eq_some.mp hu
  obtain ⟨row', hrow, hres⟩ := hrow
  obtain rfl : row = row' := Option.some.inj (hrow'.symm.trans hrow)
  refine ⟨fun roundId' => ?_, rfl, rfl⟩
  show Function.update d.rounds roundId _ roundId' = _ ∨ ∃ row, _ ∧ _ ∧
    Function.update d.rounds roundId _ roundId' = _
  by_cases hid : roundId' = roundId
  · subst hid
    rw [Function.update_self]
    cases hstate : row.state with
    | OPEN => exact .inr ⟨row, hrow, hstate, rfl⟩
    | CLOSED =>
      left
      rw [hrow, ← hstate]
    | RESOLVED =>
      rw [hstate] at hres
      cases hres
    | SETTLED =>
      rw [hstate] at hres
      cases hres
  · rw [Function.update_of_ne hid]
    exact .inl rfl

theorem OnlyClosed.trans {d'' : Database N} (h : OnlyClosed d d') (h' : OnlyClosed d' d'') :
    OnlyClosed d d'' := by
  refine ⟨fun roundId => ?_, h'.users.trans h.users, h'.eliminationLogs.trans h.eliminationLogs⟩
  obtain hsame | ⟨row, hrow, hopen, hclosed⟩ := h'.rounds roundId
  · rw [hsame]
    exact h.rounds roundId
  · obtain hsame | ⟨row', hrow', hopen', hclosed'⟩ := h.rounds roundId
    · rw [hsame] at hrow
      exact .inr ⟨row, hrow, hopen, hclosed⟩
    · obtain rfl := Option.some.inj (hclosed'.symm.trans hrow)
      cases hopen

theorem OnlyClosed.unresolved (h : OnlyClosed d d') (hrow : d.Unresolved roundId) :
    d'.Unresolved roundId := by
  obtain ⟨row, hrow, hres⟩ := hrow
  obtain hsame | ⟨row', -, -, hclosed⟩ := h.rounds roundId
  · exact ⟨row, hsame.trans hrow, hres⟩
  · exact ⟨_, hclosed, rfl⟩

/-- What is stored with a round stays. -/
theorem OnlyClosed.metadata (h : OnlyClosed d d') {row' : RoundRow N}
    (hrow' : d'.rounds roundId = some row') : ∃ row, d.rounds roundId = some row ∧
      row'.metadata = row.metadata ∧ row'.arenaId = row.arenaId := by
  obtain hsame | ⟨row, hrow, -, hclosed⟩ := h.rounds roundId
  · exact ⟨row', hsame.symm.trans hrow', rfl, rfl⟩
  · obtain rfl := Option.some.inj (hclosed.symm.trans hrow')
    exact ⟨row, hrow, rfl, rfl⟩

/-- Reads change nothing. -/
theorem serves_read {q : Request N} {a : Answer N q} (hq : q.isRead = true)
    (hs : serves net i q w a w') : w' = w := by
  cases q with
  | findRound roundId => exact hs.2
  | simulateTransaction contractId call => exact hs.2
  | countActiveArenas => exact hs
  | invalidateArenaStats arenaId => exact hs
  | getAccount publicKey => exact hs
  | _ => cases hq

/-- A request that a call may make is a read, or closes a round. -/
theorem Stage.allows_cases {g : Stage} {q : Request N} (ha : g.allows q) : q.isRead = true ∨
    ∃ roundId, q = .updateRound roundId .CLOSED ∧ g = .checked roundId := by
  cases q with
  | updateRound roundId state =>
    obtain ⟨rfl, rfl⟩ := ha
    exact .inr ⟨roundId, rfl, rfl⟩
  | _ => exact .inl ha

/-- Since `d` rounds have only been closed, and those that calls have checked are not
    resolved. -/
structure Unsent (d : Database N) (w : Platform N H) (gs : ℕ → Option Stage) : Prop where
  closed : OnlyClosed d w.db
  checked : ∀ i roundId, gs i = some (.checked roundId) → w.db.Unresolved roundId

variable {gs : ℕ → Option Stage} {g : Stage}

/-- A call moves on, and so may the database. -/
theorem Unsent.move (h : Unsent d w gs) (hclosed : OnlyClosed w.db w'.db)
    (hg : ∀ roundId, g = .checked roundId → w'.db.Unresolved roundId) :
    Unsent d w' (Function.update gs i (some g)) := by
  refine ⟨h.closed.trans hclosed, fun j roundId hj => ?_⟩
  by_cases hji : j = i
  · subst hji
    rw [Function.update_self] at hj
    exact hg roundId (Option.some.inj hj)
  · rw [Function.update_of_ne hji] at hj
    exact hclosed.unresolved (h.checked j roundId hj)

/-- A call that has checked a round has done so before, or it has just read it as
    OPEN. -/
theorem Stage.checked_of_next {q : Request N} {a : Except RoundError (Answer N q)}
    (h : g.next q a = .checked roundId) : g = .checked roundId ∨ ∃ row, row.state = .OPEN ∧
      (⟨q, a⟩ : (q : Request N) × Except RoundError (Answer N q)) =
        ⟨.findRound roundId, .ok (some row)⟩ := by
  cases q with
  | findRound roundId' =>
    match a with
    | .ok (some row) =>
      change (if g = .closing ∧ row.state = .OPEN then Stage.checked roundId' else g) = _ at h
      split_ifs at h with hopen
      · cases h
        exact .inr ⟨row, hopen.2, rfl⟩
      · exact .inl h
    | .ok none => exact .inl h
    | .error e => exact .inl h
  | _ => exact .inl h

theorem preserved_unsent (d : Database N) :
    Preserved (platform net) (closings net) (RoundCall.stage (N := N))
      (Unsent (H := H) d) where
  answers := serves_takes
  start := by
    intro w gs i c h _
    refine h.move .refl fun roundId hg => ?_
    cases c with
    | resolveRound => cases hg
    | closeRound => cases hg
  reply := by
    intro w gs i g r w' h hg ha hr
    have hclosed : OnlyClosed w.db w'.db := by
      have hserves : ∀ {q : Request N} {a : Answer N q}, g.allows q → serves net i q w a w' →
          OnlyClosed w.db w'.db := by
        intro q a ha hs
        obtain hread | ⟨roundId, rfl, rfl⟩ := Stage.allows_cases ha
        · rw [serves_read hread hs]
          exact .refl
        · obtain ⟨db, hu, rfl⟩ := hs
          exact .of_update (h.checked i roundId hg) hu
      cases hr with
      | served hs => exact hserves ha hs
      | lost hs => exact hserves ha hs
      | refused => exact .refl
    refine h.move hclosed fun roundId hnext => ?_
    obtain rfl | ⟨row, hopen, hread⟩ := Stage.checked_of_next hnext
    · exact hclosed.unresolved (h.checked i roundId hg)
    · cases hr with
      | served hs =>
        cases hread
        obtain ⟨hrow, rfl⟩ := hs
        refine ⟨row, hrow.symm, ?_⟩
        rw [hopen]
        rfl
      | lost hs => cases hread
      | refused => cases hread
  moved := by
    intro w gs m w' h hm
    cases m with
    | abort i =>
      obtain rfl := hm
      exact ⟨h.closed.trans ⟨fun _ => .inl rfl, rfl, rfl⟩, h.checked⟩
    | arena a =>
      obtain ⟨arena, -, rfl⟩ := hm
      exact ⟨h.closed, h.checked⟩

/-- Whatever it has been answered, a resolution still resolves, and all is as it was. -/
structure Still (w : Platform N H) (_ : List (Reply (Answer N) RoundError)) (w' : Platform N H)
    (g : Stage) : Prop where
  resolving : g = .resolving
  same : w' = w

theorem Still.reply {before : List (Reply (Answer N) RoundError)} {w₁ w₂ : Platform N H}
    {reply : Reply (Answer N) RoundError} (h : Still w before w₁ g) (ha : g.allows reply.request)
    (hr : (platform net).Replies i w₁ reply w₂) :
    Still w (before ++ [reply]) w₂ (g.next reply.request reply.answer) := by
  obtain ⟨rfl, rfl⟩ := h
  obtain hread | ⟨_, -, hchecked⟩ := Stage.allows_cases ha
  · refine ⟨(@closings_free N H net).next _ _ hread, ?_⟩
    cases hr with
    | served hs => exact serves_read hread hs
    | lost hs => exact serves_read hread hs
    | refused => rfl
  · cases hchecked

variable [JsNumber N] {t u : RoundSystem N H} {ev : RoundEvent N H}
variable {tr : List (RoundSystem N H × RoundEvent N H)}

/-- The calls stand where no resolution has been sent. -/
abbrev UnsentSystem (net : Network H) (d : Database N) (t : RoundSystem N H) : Prop :=
  Guarded (closings net) (Unsent d) (fun _ _ => True) t

theorem unsent_of_run (hsend : Unsendable svc net)
    (hrun : Run (RoundStep svc net) (.idle w) tr t) : UnsentSystem net w.db t :=
  Guarded.of_run (preserved_unsent w.db) (RoundCall.closings hsend) ⟨.refl, fun _ _ h => nomatch h⟩
    hrun

/-- In every run of calls that cannot send a resolution, rounds are closed at most. -/
theorem onlyClosed_of_run (hsend : Unsendable svc net)
    (hrun : Run (RoundStep svc net) (.idle w) tr t) : OnlyClosed w.db t.shared.db := by
  obtain ⟨gs, h, -⟩ := unsent_of_run hsend hrun
  exact h.closed

/-- A resolution that runs alone throws and leaves everything as it is. -/
theorem exec_of_unsendable (hsend : Unsendable svc net) {input : RoundInput N}
    {rs : List (Reply (Answer N) RoundError)} {r : Except RoundError (RoundResolution N)}
    (h : Exec (platform net) i (resolveRound svc input) w rs r w') :
    (∃ e, r = .error e) ∧ w' = w := by
  have hstart : Still w [] w .resolving := ⟨rfl, rfl⟩
  obtain ⟨g, hstill, -, hthrown⟩ := h.follows serves_takes
    (fun hstill ha hr => hstill.reply ha hr) (resolveRound_throws hsend input) hstart
  exact ⟨hthrown, hstill.same⟩

end InverseArena.Backend
