import InverseArena.Staking.Pool

/-!
# Executing runs of the staking contract

Results:
* `perform_step`: executed calls are steps.
* `exists_stakingRun`: what is decided on executed calls holds of a run.
-/

namespace InverseArena.Staking

open Transition

/-- The state a successful call leaves behind. -/
def performed {E α : Type} (a : α) (r : Except E StakingState) : Option (α × StakingState) :=
  r.toOption.map fun h => (a, h)

/-- Executes a call to the contract at `here`, not authorized by it. -/
def perform (here : Address) (a : StakingAction) (h : StakingState) :
    Option (StakingAction × StakingState) :=
  match a with
  | .initializeStaking auths admin token => performed a (initializeStaking auths admin token h)
  | .pause auths => performed a (pause auths h)
  | .unpause auths => performed a (unpause auths h)
  | .stake auths staker amount =>
    if here ∈ auths then none else performed a ((stake here auths staker amount h).map (·.2))
  | .unstake auths staker shares =>
    if here ∈ auths then none else performed a ((unstake here auths staker shares h).map (·.2))
  | .distributeRewards auths caller amount =>
    if here ∈ auths then none else performed a (distributeRewards here auths caller amount h)
  | .moveTokens _ => none

theorem performed_eq_some {E α : Type} {a b : α} {r : Except E StakingState} {h : StakingState}
    (hr : performed a r = some (b, h)) : b = a ∧ r = .ok h := by
  obtain ⟨h', hok, heq⟩ := Option.map_eq_some_iff.mp hr
  cases heq
  exact ⟨rfl, Fallible.toOption_eq_some.mp hok⟩

theorem map_snd_eq_ok {E : Type} {r : Except E (ℤ × StakingState)} {h : StakingState}
    (hr : r.map (·.2) = .ok h) : ∃ x, r = .ok (x, h) := by
  cases r with
  | error e => cases hr
  | ok v =>
    cases hr
    exact ⟨v.1, rfl⟩

theorem perform_step {here : Address} (m : StakingAction) (h : StakingState) (a : StakingAction)
    (h' : StakingState) (hp : perform here m h = some (a, h')) : StakingStep here h a h' := by
  cases m with
  | initializeStaking auths admin token =>
    obtain ⟨rfl, hexec⟩ := performed_eq_some hp
    exact .initializeStaking hexec
  | pause auths =>
    obtain ⟨rfl, hexec⟩ := performed_eq_some hp
    exact .pause hexec
  | unpause auths =>
    obtain ⟨rfl, hexec⟩ := performed_eq_some hp
    exact .unpause hexec
  | stake auths staker amount =>
    unfold perform at hp
    dsimp only at hp
    split_ifs at hp with hhere
    obtain ⟨rfl, hexec⟩ := performed_eq_some hp
    obtain ⟨shares, hexec⟩ := map_snd_eq_ok hexec
    exact .stake hhere hexec
  | unstake auths staker shares =>
    unfold perform at hp
    dsimp only at hp
    split_ifs at hp with hhere
    obtain ⟨rfl, hexec⟩ := performed_eq_some hp
    obtain ⟨amount, hexec⟩ := map_snd_eq_ok hexec
    exact .unstake hhere hexec
  | distributeRewards auths caller amount =>
    unfold perform at hp
    dsimp only at hp
    split_ifs at hp with hhere
    obtain ⟨rfl, hexec⟩ := performed_eq_some hp
    exact .distributeRewards hhere hexec
  | moveTokens tokens => cases hp

instance (h : StakingState) (a : StakingAction) : Decidable (NoOverflow h a) :=
  match a with
  | .stake _ _ _ => inferInstanceAs (Decidable (_ ≤ _))
  | .unstake _ _ _ => inferInstanceAs (Decidable (_ ≤ _))
  | .initializeStaking _ _ _ => isTrue trivial
  | .pause _ => isTrue trivial
  | .unpause _ => isTrue trivial
  | .distributeRewards _ _ _ => isTrue trivial
  | .moveTokens _ => isTrue trivial

/-- A property decided on executed calls holds of some run without overflow. -/
theorem exists_stakingRun {here : Address} (calls : List StakingAction) {h : StakingState}
    {P : List (StakingState × StakingAction) → StakingState → Prop}
    (hp : ∃ r ∈ replay (perform here) calls [] h,
      (∀ e ∈ r.1, NoOverflow e.1 e.2) ∧ P r.1 r.2) :
    ∃ tr h', Run (StakingStep here) h tr h' ∧ (∀ e ∈ tr, NoOverflow e.1 e.2) ∧ P tr h' :=
  exists_run_of_replay perform_step hp

/-- Accounts 11 and 12 hold 100 million units each of token 1. -/
def sampleTokens : Tokens := fun _ =>
  Ledger.empty.mintAll [(⟨11⟩, 100000000), (⟨12⟩, 100000000)]

end InverseArena.Staking
