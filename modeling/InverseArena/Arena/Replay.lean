import InverseArena.Arena.Contract
import InverseArena.Library.Transition

/-!
# Executing runs of the arena

Runs of the arena are executed move by move, in any environment that can be
computed.

Results:
* `perform_step`: executed moves are steps.
* `exists_run`, `exists_run_call`: what is decided on executed moves holds of a
  run.
-/

namespace InverseArena.Arena

open Transition

variable {H : Type}

/-- Something that can happen outside the arena, as a function. -/
structure Change (env : Env H) where
  apply : H → Option H
  evolves : ∀ {now h h'}, apply h = some h' → env.evolves now h h'

/-- What an executed run is made of. -/
inductive Move (env : Env H) where
  | call (auths : List Address) (c : Call)
  | outside (change : Change env)
  | tick (time : ℕ)

variable {env : Env H} [DecidablePred env.mayAuthorize]

/-- Executes one move. -/
def perform (m : Move env) (w : World H) : Option (Action H × World H) :=
  match m with
  | .call auths c =>
    if ∀ a ∈ auths, env.mayAuthorize a then
      match exec env auths c w with
      | .ok w' => some (.call auths c, w')
      | .error _ => none
    else none
  | .outside change =>
    (change.apply w.outside).map fun h => (.external h, { w with outside := h })
  | .tick time =>
    if w.now ≤ time ∧ time ≤ MachineInt.u64Max then some (.tick time, { w with now := time })
    else none

theorem perform_call {auths : List Address} {c : Call} {w w' : World H} {a : Action H}
    (h : perform (.call auths c : Move env) w = some (a, w')) :
    a = .call auths c ∧ (∀ a ∈ auths, env.mayAuthorize a) ∧ exec env auths c w = .ok w' := by
  unfold perform at h
  dsimp only at h
  split_ifs at h with hauth
  split at h
  · rename_i w₁ hexec
    cases h
    exact ⟨rfl, hauth, hexec⟩
  · cases h

theorem perform_step (m : Move env) (w : World H) (a : Action H) (w' : World H)
    (h : perform m w = some (a, w')) : Step env w a w' := by
  cases m with
  | call auths c =>
    obtain ⟨rfl, hauth, hexec⟩ := perform_call h
    exact .call hauth hexec
  | outside change =>
    obtain ⟨h', happly, heq⟩ := Option.map_eq_some_iff.mp h
    cases heq
    exact .external (change.evolves happly)
  | tick time =>
    unfold perform at h
    dsimp only at h
    split_ifs at h with ht
    cases h
    exact .tick ht.1 ht.2

/-- A property decided on executed moves holds of some run. -/
theorem exists_run (moves : List (Move env)) {w : World H}
    {P : List (World H × Action H) → World H → Prop}
    (h : ∃ r ∈ replay perform moves [] w, P r.1 r.2) :
    ∃ tr w', Run (Step env) w tr w' ∧ P tr w' :=
  exists_run_of_replay perform_step h

/-- A property decided on executed moves and one more call. -/
theorem exists_run_call (moves : List (Move env)) (auths : List Address) (c : Call) {w : World H}
    {P : List (World H × Action H) → World H → World H → Prop}
    (h : ∃ r ∈ replay perform moves [] w,
      ∃ s ∈ perform (.call auths c : Move env) r.2, P r.1 r.2 s.2) :
    ∃ tr t u, Run (Step env) w tr t ∧ Step env t (.call auths c) u ∧ P tr t u := by
  obtain ⟨⟨tr, t⟩, hr, ⟨a, u⟩, hs, hP⟩ := h
  have hstep := perform_step _ _ _ _ hs
  obtain ⟨rfl, -⟩ := perform_call hs
  exact ⟨tr, t, u, Run.of_replay perform_step moves .nil hr, hstep, hP⟩

/-! ## Sample moves -/

/-- SHA-256 of the preimages used below, those with the all-zero salt. Other
    preimages are only kept apart by their choice. -/
def sha256OfZeroSalt (bytes : List UInt8) : BytesN 32 :=
  if bytes.head? = some (Choice.toByte .Heads) then
    if bytes = preimage .Heads (Vector.replicate 32 0) then
      #v[127, 156, 158, 49, 172, 130, 86, 202, 47, 37, 133, 131, 223, 38, 45, 188,
         125, 111, 104, 242, 160, 48, 67, 213, 201, 154, 74, 229, 167, 57, 108, 233]
    else Vector.replicate 32 0
  else
    #v[26, 125, 253, 234, 255, 238, 218, 196, 137, 40, 126, 133, 190, 94, 156, 4,
       154, 47, 246, 71, 15, 85, 207, 48, 38, 15, 85, 57, 90, 193, 177, 89]

/-- The arguments of `initialize` used in sample runs: admin 10, stake token 1,
    yield vault 2, oracle 3. -/
def sampleArgs (fee : ℤ) : InitializeArgs := ⟨⟨10⟩, ⟨1⟩, ⟨2⟩, fee, ⟨3⟩, ⟨4⟩, 0, 2, 100, 60⟩

/-- The commitment of `choice` with the all-zero salt. -/
def sampleCommitment (choice : Choice) : BytesN 32 :=
  sha256OfZeroSalt (preimage choice (Vector.replicate 32 0))

variable {env : Env H}

/-- The arena is initialized, and players 11 and 12 join. -/
def sampleJoins (fee : ℤ) : List (Move env) :=
  [.call [⟨10⟩] (.initializeArena (sampleArgs fee)), .call [⟨11⟩] (.joinArena ⟨11⟩),
    .call [⟨12⟩] (.joinArena ⟨12⟩)]

/-- Then player 11 commits to heads and reveals at the deadline of the first
    round, which is thereby open for resolution. -/
def sampleGame (fee : ℤ) : List (Move env) := sampleJoins fee ++
  [.call [⟨10⟩] (.startRound 60),
    .call [⟨11⟩] (.submitCommitment ⟨11⟩ (sampleCommitment .Heads)), .tick 60,
    .call [⟨11⟩] (.revealChoice ⟨11⟩ .Heads (Vector.replicate 32 0))]

end InverseArena.Arena
