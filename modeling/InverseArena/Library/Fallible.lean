import Mathlib.Tactic.Common

/-!
# Fallible computations

Guards and lookups in `Except`, and the inversion lemmas that read a
successful run of a `do` block as the conjunction of its steps, and a failing one as
the failure of one of them.

Results:
* `bind_eq_ok`, `map_eq_ok`, `pure_eq_ok`, `ensure_eq_ok`, `orThrow_eq_ok`: a block returns
  `b` iff every step in it returns and the last one returns `b`.
* `bind_eq_error`, `ensure_eq_error`, `orThrow_eq_error`: a block fails iff a step fails
  after those before it have returned.
-/

namespace Fallible

universe u v

variable {ε : Type v} {α β : Type u}

/-- Go on if `p` holds, stop with `e` otherwise. -/
def ensure (p : Prop) [Decidable p] (e : ε) : Except ε PUnit.{u + 1} :=
  if p then .ok ⟨⟩ else .error e

/-- The error of a failing computation. -/
def failure (r : Except ε α) : Option ε :=
  match r with
  | .error e => some e
  | .ok _ => none

/-- The value of `o`, or the error `e` when there is none. -/
def orThrow (o : Option α) (e : ε) : Except ε α :=
  match o with
  | some a => .ok a
  | none => .error e

@[simp] theorem bind_eq_ok {x : Except ε α} {f : α → Except ε β} {b : β} :
    (x >>= f) = .ok b ↔ ∃ a, x = .ok a ∧ f a = .ok b := by
  cases x with
  | error e => simp [bind, Except.bind]
  | ok a => simp [bind, Except.bind]

@[simp] theorem pure_eq_ok {a b : α} : (pure a : Except ε α) = .ok b ↔ a = b := by
  simp [pure, Except.pure]

theorem map_eq_ok {f : α → β} {x : Except ε α} {b : β} :
    f <$> x = .ok b ↔ ∃ a, x = .ok a ∧ f a = b := by
  cases x with
  | error e => simp [Functor.map, Except.map]
  | ok a => simp [Functor.map, Except.map]

@[simp] theorem ensure_eq_ok {p : Prop} [Decidable p] {e : ε} {u : PUnit.{u + 1}} :
    ensure p e = .ok u ↔ p := by
  unfold ensure
  split_ifs with h
  · simp [h]
  · simp [h]

@[simp] theorem orThrow_eq_ok {o : Option α} {e : ε} {a : α} :
    orThrow o e = .ok a ↔ o = some a := by
  cases o with
  | none => simp [orThrow]
  | some b => simp [orThrow]

theorem bind_eq_error {x : Except ε α} {f : α → Except ε β} {e : ε} :
    (x >>= f) = .error e ↔ x = .error e ∨ ∃ a, x = .ok a ∧ f a = .error e := by
  cases x with
  | error e' => simp [bind, Except.bind]
  | ok a => simp [bind, Except.bind]

theorem ensure_eq_error {p : Prop} [Decidable p] {e e' : ε} :
    ensure p e = .error e' ↔ ¬ p ∧ e = e' := by
  unfold ensure
  split_ifs with h
  · simp [h]
  · simp [h]

theorem orThrow_eq_error {o : Option α} {e e' : ε} :
    orThrow o e = .error e' ↔ o = none ∧ e = e' := by
  cases o with
  | none => simp [orThrow]
  | some b => simp [orThrow]

theorem failure_eq_some {r : Except ε α} {e : ε} : failure r = some e ↔ r = .error e := by
  cases r with
  | error e' => simp [failure]
  | ok a => simp [failure]

theorem toOption_eq_some {r : Except ε α} {a : α} : r.toOption = some a ↔ r = .ok a := by
  cases r with
  | error e => simp [Except.toOption]
  | ok b => simp [Except.toOption]

end Fallible
