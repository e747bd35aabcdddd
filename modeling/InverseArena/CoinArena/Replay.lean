import InverseArena.CoinArena.Effects
import InverseArena.Host.Token
import InverseArena.Library.Transition

/-!
# Executing runs of the coin arena

Results:
* `perform_step`: executed moves are steps.
* `exists_run`, `exists_run_call`: what is decided on executed moves holds of a
  run.
-/

namespace InverseArena.CoinArena

open Transition

variable {G H : Type}

/-- What an executed run is made of. -/
inductive Move where
  | call (auths : List Address) (c : Call)
  | tick (time sequence : ℕ)

variable {env : Env G H} [DecidablePred env.mayAuthorize]

/-- Executes one move. -/
def perform (env : Env G H) [DecidablePred env.mayAuthorize] (m : Move) (w : World G H) :
    Option (Action H × World G H) :=
  match m with
  | .call auths c =>
    if ∀ a ∈ auths, env.mayAuthorize a then
      (exec env auths c w).toOption.map fun w' => (.call auths c, w')
    else none
  | .tick time sequence =>
    if w.now ≤ time ∧ time ≤ MachineInt.u64Max ∧ w.sequence ≤ sequence then
      some (.tick time sequence, { w with now := time, sequence := sequence })
    else none

theorem perform_call {auths : List Address} {c : Call} {w w' : World G H} {a : Action H}
    (h : perform env (.call auths c) w = some (a, w')) :
    a = .call auths c ∧ Step env w a w' := by
  unfold perform at h
  dsimp only at h
  split_ifs at h with hauth
  obtain ⟨w₁, hexec, heq⟩ := Option.map_eq_some_iff.mp h
  cases heq
  exact ⟨rfl, .call hauth (Fallible.toOption_eq_some.mp hexec)⟩

theorem perform_step (m : Move) (w : World G H) (a : Action H) (w' : World G H)
    (h : perform env m w = some (a, w')) : Step env w a w' := by
  cases m with
  | call auths c => exact (perform_call h).2
  | tick time sequence =>
    unfold perform at h
    dsimp only at h
    split_ifs at h with ht
    cases h
    exact .tick ht.1 ht.2.1 ht.2.2

/-- A property decided on executed moves holds of some run. -/
theorem exists_run (moves : List Move) {w : World G H}
    {P : List (World G H × Action H) → World G H → Prop}
    (h : ∃ r ∈ replay (perform env) moves [] w, P r.1 r.2) :
    ∃ tr w', Run (Step env) w tr w' ∧ P tr w' :=
  exists_run_of_replay perform_step h

/-- A property decided on executed moves and one more call. -/
theorem exists_run_call (moves : List Move) (auths : List Address) (c : Call) {w : World G H}
    {P : List (World G H × Action H) → World G H → World G H → Prop}
    (h : ∃ r ∈ replay (perform env) moves [] w,
      ∃ s ∈ perform env (.call auths c) r.2, P r.1 r.2 s.2) :
    ∃ tr t u, Run (Step env) w tr t ∧ Step env t (.call auths c) u ∧ P tr t u := by
  obtain ⟨⟨tr, t⟩, hr, ⟨a, u⟩, hs, hP⟩ := h
  obtain ⟨rfl, hstep⟩ := perform_call hs
  exact ⟨tr, t, u, Run.of_replay perform_step moves .nil hr, hstep, hP⟩

/-! ## A sample network -/

/-- The missing entries: the platform fee and the bounds on a round's length. -/
structure SampleGlobals where
  feeBps : ℕ
  roundBounds : ℕ × ℕ

/-- Keccak-256 of the preimages used below, those with the all-zero salt. Other
    preimages are only kept apart by their choice. -/
def keccakOfZeroSalt (bytes : List UInt8) : BytesN 32 :=
  if bytes.head? = some (Choice.byte .Heads) then
    if bytes = preimage .Heads (Vector.replicate 32 0) then
      #v[243, 154, 134, 159, 98, 231, 92, 245, 240, 191, 145, 70, 136, 166, 178, 137,
         202, 242, 4, 148, 53, 216, 230, 140, 92, 94, 109, 5, 228, 73, 19, 243]
    else Vector.replicate 32 0
  else
    #v[13, 103, 142, 49, 164, 178, 130, 91, 128, 111, 225, 96, 103, 92, 208, 29,
       171, 21, 152, 2, 199, 249, 67, 151, 206, 69, 237, 145, 181, 243, 170, 198]

/-- Standard tokens around the arena at address 100; the missing functions do
    what their callers document. -/
def sampleEnv : Env SampleGlobals Tokens where
  here := ⟨100⟩
  mayAuthorize a := a.id < 100
  evolves _ h h' := h = h'
  keccak256 := keccakOfZeroSalt
  transfer _ token sender recipient amount h := h.transfer token sender recipient amount
  getPlatformFeeBps g := g.feeBps
  updatePlatformFee auths config newFeeBps g := do
    let config ← Host.okOr config .ConfigNotFound
    Host.requireAuth auths config.admin
    Host.check (newFeeBps ≤ 1000) .InvalidSlashRate
    pure { g with feeBps := newFeeBps }
  setGlobalRoundBounds min max g := { g with roundBounds := (min, max) }
  getArenaRoundBounds _ g := g.roundBounds

instance : DecidablePred sampleEnv.mayAuthorize :=
  fun a => inferInstanceAs (Decidable (a.id < 100))

/-- Accounts 11 to 13 hold 20 million units each of every token; the platform
    fee is 10%. -/
def sampleWorld : World SampleGlobals Tokens :=
  .fresh ⟨1000, 10, 2592000⟩
    (fun _ => Ledger.empty.mintAll [(⟨11⟩, 20000000), (⟨12⟩, 20000000), (⟨13⟩, 20000000)]) 0 0

/-- The arguments of `initialize` used in sample runs: token 1, the lowest fee,
    treasury 20, joining until time 1000. -/
def sampleArgs (admin : ℕ) (maxPlayers : ℕ) : InitializeArgs :=
  ⟨⟨admin⟩, ⟨1⟩, 4000000, maxPlayers, 1000, ⟨20⟩, 0⟩

/-- Admin 10 sets up an arena, and players 11 and 12 join. -/
def sampleJoins (maxPlayers : ℕ) : List Move :=
  [.call [] (.initializeArena (sampleArgs 10 maxPlayers)), .call [⟨11⟩] (.join ⟨11⟩),
    .call [⟨12⟩] (.join ⟨12⟩)]

/-- Players 11 and 12 play a round, which leaves 11 as the winner. -/
def sampleGame : List Move :=
  [.call [⟨10⟩] .startGame, .call [⟨11⟩] (.submitChoice ⟨11⟩ .Heads),
    .call [⟨12⟩] (.submitChoice ⟨12⟩ .Tails), .call [] .resolveRound]

end InverseArena.CoinArena
