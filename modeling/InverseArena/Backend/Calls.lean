import InverseArena.Arena.Membership
import InverseArena.Backend.Transactions

/-!
# Calls side by side

Any number of calls of `resolveRound` and `closeRound`, with the database giving
up transactions and the chain moving on in between.

Results:
* `RoundCall.follows_of`: what there is to show where only what calls store matters.
* `tidy_of_run`: the transactions of the calls are tidy in every state.
* `RoundStep.rows`: a step changes the committed rows by closing a round or by
  committing a resolution.
* `RoundStep.arena`: a step changes the arena by one step of its contract.
-/

namespace InverseArena.Backend

open Async Transition

variable {N H : Type}

/-- The calls of the service. -/
inductive RoundCall (N : Type) where
  | resolveRound (input : RoundInput N)
  | closeRound (roundId : String)

namespace RoundCall

/-- What the call runs. -/
def program [JsNumber N] (svc : Service) : RoundCall N → Program N Unit
  | resolveRound input => do
    let _ ← Backend.resolveRound svc input
    pure ()
  | closeRound roundId => do
    let _ ← Backend.closeRound roundId
    pure ()

/-- Where the call starts. -/
def start : RoundCall N → Place
  | resolveRound _ => .outside
  | closeRound _ => .closing

end RoundCall

/-- One step of the service and what it runs on. -/
abbrev RoundStep [JsNumber N] (svc : Service) (net : Network H) :=
  System.Step (RoundCall.program (N := N) svc) (platform net)

/-- The service with its calls, on its platform. -/
abbrev RoundSystem (N H : Type) := System (Answer N) RoundError Unit (Platform N H)

/-- What happens to it. -/
abbrev RoundEvent (N H : Type) := Event (Answer N) RoundError (RoundCall N) (PlatformMove H)

/-- Any round, any eliminations. -/
def Anything (_ : String) (_ : List String) : Prop := True

theorem RoundCall.follows [JsNumber N] (svc : Service) (c : RoundCall N) :
    (c.program svc).Follows (statements Anything) c.start fun _ _ => True := by
  cases c with
  | resolveRound input =>
    show (Backend.resolveRound svc input >>= _).Follows _ _ _
    rw [follows_bind]
    refine (resolveRound_follows svc input fun _ _ => trivial).mono fun g r _ => ?_
    cases r with
    | ok _ => exact trivial
    | error e => exact trivial
  | closeRound roundId =>
    show (Backend.closeRound roundId >>= _).Follows _ _ _
    rw [follows_bind]
    refine (closeRound_follows roundId).mono fun g r _ => ?_
    cases r with
    | ok _ => exact trivial
    | error e => exact trivial

/-! ## What calls store -/

/-- What a call stores in its transaction. -/
def Request.isStored : Request N → Bool
  | .claimRound _ _ _ | .createLogs _ => true
  | _ => false

section Stored

variable {P : Protocol (Answer N) RoundError Unit}

/-- The rule for a transaction, where only what is stored matters. -/
theorem transaction_follows_of (hfree : ∀ q : Request N, q.isStored = false → P.allowed () q)
    {α : Type} {body : Program N α} (hbody : body.Follows P () fun _ _ => True) :
    (transaction body).Follows P () fun _ _ => True := by
  unfold transaction
  rw [follows_bind]
  refine ⟨hfree _ rfl, fun _ _ => ?_, fun e => trivial⟩
  show (tryCatch body _ >>= _).Follows _ _ _
  rw [follows_bind, follows_handle]
  refine hbody.mono fun g r _ => ?_
  cases r with
  | ok a =>
    show (ask _ >>= _).Follows _ _ _
    rw [follows_bind]
    exact ⟨hfree _ rfl, fun _ _ => trivial, fun e => trivial⟩
  | error e =>
    show (tryCatch (ask _) _ >>= _).Follows _ _ _
    rw [follows_bind, follows_handle]
    exact ⟨hfree _ rfl, fun _ _ => trivial, fun _ => trivial⟩

theorem claimAndLog_follows_of {roundId : String} {state : RoundState}
    {resolution : RoundResolution N} {metadata : RoundMetadata N}
    (hclaim : P.allowed ()
      (.claimRound roundId state { metadata with resolution := some resolution }))
    (hlogs : P.allowed () (.createLogs (eliminationLogs roundId resolution.eliminatedPlayers))) :
    (claimAndLog roundId state resolution metadata).Follows P () fun _ _ => True := by
  unfold claimAndLog
  rw [follows_bind]
  refine ⟨hclaim, fun count _ => ?_, fun e => trivial⟩
  show (check _ _ >>= _).Follows _ _ _
  rw [follows_bind, follows_check]
  refine ⟨fun _ => ?_, fun _ => trivial⟩
  show (if _ then _ else _ : Program N Unit).Follows _ _ _
  split_ifs
  · exact ⟨hlogs, fun _ _ => trivial, fun e => trivial⟩
  · exact trivial

/-- A resolution stores the choices of its input, the players that are not among the
    active ones it has read as eliminated, and at most one payout. -/
def Records [JsNumber N] (P : Protocol (Answer N) RoundError Unit) (input : RoundInput N) : Prop :=
  ∀ (ids : List String) (payouts : List (Payout N)) (poolBalances : String → Option N),
    (payouts = [] ∨ ∃ result a, result.toText = some a ∧
      P.answers (.simulateTransaction input.arenaContractId .get_winner)
        (.success (some result)) ∧
      payouts = [⟨a, prize input.playerChoices (input.allActivePlayerIds.filter (· ∉ ids))
        input.oracleYield a⟩]) →
    P.allowed () (.claimRound input.roundId .RESOLVED
      ⟨input.playerChoices, input.oracleYield, input.randomSeed,
        some ⟨input.allActivePlayerIds.filter (· ∉ ids), payouts, poolBalances⟩⟩) ∧
    P.allowed () (.createLogs
      (eliminationLogs input.roundId (input.allActivePlayerIds.filter (· ∉ ids))))

/-- The rule for a call, where only what is stored matters. -/
theorem RoundCall.follows_of [JsNumber N] (svc : Service)
    (hfree : ∀ q : Request N, q.isStored = false → P.allowed () q) {c : RoundCall N}
    (hrecords : ∀ input, c = .resolveRound input → Records P input) :
    (c.program svc).Follows P () fun _ _ => True := by
  have hplain : FreeOf P := by
    refine ⟨fun g q hq => hfree q ?_, fun _ _ _ _ => rfl⟩
    cases q with
    | claimRound | createLogs => cases hq
    | _ => rfl
  cases c with
  | resolveRound input =>
    show (Backend.resolveRound svc input >>= _).Follows _ _ _
    rw [follows_bind]
    refine (resolveRound_follows_of (Q := fun _ => True) hplain svc () input
      fun ids payouts poolBalances _ hpayouts => ?_).mono fun g r _ => ?_
    · obtain ⟨hclaim, hlogs⟩ := hrecords input rfl ids payouts poolBalances hpayouts
      exact (transaction_follows_of hfree (claimAndLog_follows_of hclaim hlogs)).mono
        fun _ _ _ _ => trivial
    · cases r with
      | ok _ => exact trivial
      | error e => exact trivial
  | closeRound roundId =>
    show (Backend.closeRound roundId >>= _).Follows _ _ _
    rw [follows_bind]
    unfold Backend.closeRound
    refine hplain.bind rfl (fun found _ => ?_) fun e => trivial
    rw [follows_bind, follows_orThrow]
    refine ⟨fun round _ => ?_, fun _ => trivial⟩
    show (check _ _ >>= _).Follows _ _ _
    rw [follows_bind, follows_check]
    refine ⟨fun _ => ?_, fun _ => trivial⟩
    show (ask _ >>= _).Follows _ _ _
    rw [follows_bind]
    exact ⟨hfree _ rfl, fun _ _ => trivial, fun e => trivial⟩

end Stored

/-! ## Tidy databases -/

/-- The database is tidy. -/
def TidyPlatform (w : Platform N H) (gs : ℕ → Option Place) : Prop := Tidy Anything w.db gs

theorem preserved_tidy (net : Network H) :
    Preserved (platform net) (statements Anything) (RoundCall.start (N := N))
      (TidyPlatform (N := N) (H := H)) where
  answers := serves_expected net
  start := by
    intro w gs i c ht hi
    refine Tidy.place ht fun tx htx => ?_
    rw [Tidy.absent ht i hi] at htx
    cases htx
  reply ht hg ha hr := Tidy.reply ht hg ha hr
  moved := by
    intro w gs m w' ht hm
    cases m with
    | abort i =>
      obtain rfl := hm
      exact Tidy.abort ht i
    | arena a =>
      obtain ⟨arena, -, rfl⟩ := hm
      exact ht

variable {net : Network H} {w : Platform N H} {t u : RoundSystem N H} {ev : RoundEvent N H}
variable {tr : List (RoundSystem N H × RoundEvent N H)}

/-- The service stands where its transactions are tidy. -/
def TidySystem (t : RoundSystem N H) : Prop :=
  Guarded (statements Anything) TidyPlatform (fun _ _ => True) t

theorem tidy_idle (hidle : ∀ i, w.db.transactions i = none) :
    TidySystem (.idle w : RoundSystem N H) := by
  refine Guarded.idle ⟨fun i g tx hg htx => ?_, fun i _ => hidle i, fun i tx roundId row htx => ?_⟩
  · cases hg
  · rw [hidle i] at htx
    cases htx

/-- The request that takes effect in a step. -/
def RoundEvent.effective : RoundEvent N H → Option (Request N)
  | .reply _ r => r.effective
  | _ => none

theorem Included.step {arena arena' : Arena.World H} (h : Included net arena arena') :
    arena' = arena ∨ Arena.Step net.env arena (.call [net.signer] .resolveRound) arena' := by
  obtain h | h := h
  · exact .inl h
  · refine .inr (.call ?_ (resolveNow_eq_ok net |>.mp h).2)
    intro a ha
    obtain rfl := List.mem_singleton.mp ha
    exact net.signer_authorizes

variable [JsNumber N] {svc : Service}

theorem TidySystem.step (ht : TidySystem t) (hs : RoundStep svc net t ev u) : TidySystem u :=
  Guarded.step (preserved_tidy net) (RoundCall.follows svc) ht hs

theorem tidy_of_run (hidle : ∀ i, w.db.transactions i = none)
    (hrun : Run (RoundStep svc net) (.idle w) tr t) : TidySystem t :=
  hrun.invariant (fun _ _ _ ht hs => ht.step hs) (tidy_idle hidle)

theorem RoundStep.rows (ht : TidySystem t) (hs : RoundStep svc net t ev u) :
    RowChange Anything t.shared.db u.shared.db ev.effective := by
  have hquiet : Database.SameRows t.shared.db u.shared.db →
      RowChange Anything t.shared.db u.shared.db (none : Option (Request N)) :=
    .same (fun _ _ h => nomatch h) (fun h => nomatch h)
  cases hs with
  | start _ => exact hquiet .refl
  | @reply i s' r k hi hr =>
    obtain ⟨gs, g, htidy, hg, ha⟩ := ht.request hi
    exact Tidy.rows htidy hg ha hr
  | @moved m s' hm =>
    cases m with
    | abort i =>
      obtain rfl := hm
      exact hquiet ⟨rfl, rfl, rfl⟩
    | arena a =>
      obtain ⟨arena, -, rfl⟩ := hm
      exact hquiet .refl

/-- A step of the arena within a step of the system. -/
theorem RoundStep.arena (hs : RoundStep svc net t ev u) :
    u.shared.arena = t.shared.arena ∨
      Arena.Step net.env t.shared.arena (.call [net.signer] .resolveRound) u.shared.arena ∨
      ∃ a, ev = .moved (.arena a) ∧ Arena.Step net.env t.shared.arena a u.shared.arena := by
  cases hs with
  | start _ => exact .inl rfl
  | @reply i s' r k hi hr =>
    have hserves : ∀ {q : Request N} {a : Answer N q}, serves net i q t.shared a s' →
        s'.arena = t.shared.arena ∨
          Arena.Step net.env t.shared.arena (.call [net.signer] .resolveRound) s'.arena := by
      intro q a hserves
      cases q with
      | sendTransaction contractId call =>
        obtain ⟨arena, hincluded, rfl⟩ := hserves
        exact hincluded.step
      | getTransaction hash =>
        obtain ⟨arena, hincluded, rfl⟩ := hserves
        exact hincluded.step
      | findRound roundId =>
        obtain ⟨-, rfl⟩ := hserves
        exact .inl rfl
      | updateRound roundId state =>
        obtain ⟨db, -, rfl⟩ := hserves
        exact .inl rfl
      | claimRound roundId state metadata =>
        obtain ⟨db, -, rfl⟩ := hserves
        exact .inl rfl
      | createLogs logs =>
        obtain ⟨db, -, rfl⟩ := hserves
        exact .inl rfl
      | commit =>
        obtain ⟨db, -, rfl⟩ := hserves
        exact .inl rfl
      | simulateTransaction contractId call =>
        obtain ⟨-, rfl⟩ := hserves
        exact .inl rfl
      | _ =>
        obtain rfl := hserves
        exact .inl rfl
    cases hr with
    | served h => exact (hserves h).imp_right .inl
    | lost h => exact (hserves h).imp_right .inl
    | refused => exact .inl rfl
  | @moved m s' hm =>
    cases m with
    | abort i =>
      obtain rfl := hm
      exact .inl rfl
    | arena a =>
      obtain ⟨arena, harena, rfl⟩ := hm
      exact .inr (.inr ⟨a, rfl, harena⟩)

theorem RoundStep.wellFormed (hw : Arena.WellFormed t.shared.arena)
    (hs : RoundStep svc net t ev u) : Arena.WellFormed u.shared.arena := by
  obtain h | h | ⟨a, -, h⟩ := hs.arena
  · rw [h]
    exact hw
  · exact hw.step h
  · exact hw.step h

end InverseArena.Backend
