import InverseArena.Factory.Contract
import InverseArena.Host.Token
import InverseArena.Library.Transition

/-!
# Executing runs of the factory

Results:
* `performCall_step`: executed calls are steps.
* `exists_factoryRun`: what is decided on executed calls holds of a run.
-/

namespace InverseArena.Factory

open Host Arena Transition

variable {H : Type} {env : FactoryEnv H}

/-- Executes a call not authorized by the factory. -/
def performCall (env : FactoryEnv H) (m : List Address × FactoryCall) (f : FactoryState H) :
    Option (FactoryAction H × FactoryState H) :=
  if env.here ∈ m.1 then none
  else (exec env m.1 m.2 f).toOption.map fun f' => (.call m.1 m.2, f')

theorem performCall_step (m : List Address × FactoryCall) (f : FactoryState H)
    (a : FactoryAction H) (f' : FactoryState H) (h : performCall env m f = some (a, f')) :
    FactoryStep env f a f' := by
  unfold performCall at h
  split_ifs at h with hhere
  obtain ⟨f₁, hexec, heq⟩ := Option.map_eq_some_iff.mp h
  cases heq
  exact .call hhere (Fallible.toOption_eq_some.mp hexec)

/-- A property decided on executed calls holds of some run. -/
theorem exists_factoryRun (calls : List (List Address × FactoryCall)) {f : FactoryState H}
    {P : List (FactoryState H × FactoryAction H) → FactoryState H → Prop}
    (h : ∃ r ∈ replay (performCall env) calls [] f, P r.1 r.2) :
    ∃ tr f', Run (FactoryStep env) f tr f' ∧ P tr f' :=
  exists_run_of_replay performCall_step h

/-- The configuration of a `create_pool` call. -/
def createdConfig : FactoryAction H → Option PoolConfig
  | .call _ (.createPool _ config) => some config
  | _ => none

/-! ## A sample network -/

/-- Standard tokens and vaults that answer and hold nothing, around the factory
    at address 4. -/
def sampleNetwork : Env Tokens where
  here := ⟨4⟩
  mayAuthorize a := a.id < 100
  evolves _ h h' := h = h'
  sha256 _ := Vector.replicate 32 0
  transfer _ token sender recipient amount h := h.transfer token sender recipient amount
  deposit _ _ _ _ h := some h
  withdrawAll _ _ _ h := some (0, h)
  balanceOf _ _ _ h := some (0, h)
  getCurrentYieldBps _ _ h := some (0, h)
  uploaded _ _ := false

/-- Arenas are deployed from address 100 on. -/
def sampleEnv : FactoryEnv Tokens where
  network := sampleNetwork
  address salt := ⟨100 + (salt.get 31).toNat⟩
  isArena _ := true

/-- Accounts 11 and 12 hold 1000 units each of every token. -/
def sampleBalances : Tokens := fun _ => Ledger.empty.mintAll [(⟨11⟩, 1000), (⟨12⟩, 1000)]

/-- A configuration with token 1, vault 2 and oracle 3. -/
def sampleConfig : PoolConfig := ⟨⟨1⟩, ⟨2⟩, 100, ⟨3⟩, 2, 10, 60⟩

/-- Admin 10 sets the factory up for host 11 and token 1. -/
def sampleSetup : List (List Address × FactoryCall) :=
  [([⟨10⟩], .initializeFactory ⟨10⟩ 100), ([⟨10⟩], .setArenaWasmHash (Vector.replicate 32 0)),
    ([⟨10⟩], .addToWhitelist ⟨11⟩), ([⟨10⟩], .addSupportedToken ⟨1⟩)]

end InverseArena.Factory
