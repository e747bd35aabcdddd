import InverseArena.Library.Fallible

/-!
# The contract host

What the Soroban host gives every contract: addresses, fixed-length byte
strings, authorization, and the two ways a call can fail. A failing call is
rolled back by the host, so it changes nothing.
-/

namespace InverseArena

/-- An account or contract address. -/
structure Address where
  id : ℕ
  deriving DecidableEq, Repr

/-- `BytesN<n>`. -/
abbrev BytesN (n : ℕ) := Vector UInt8 n

/-- How a call fails: with an error of the contract's own enumeration, or by a
    host trap (missing authorization, a failed sub-call that is not caught). -/
inductive Fault (E : Type) where
  | error (e : E)
  | trap
  deriving DecidableEq, Repr

/-- The result of a call to a contract with errors `E`. -/
abbrev Result (E : Type) := Except (Fault E)

namespace Host

variable {E α : Type}

/-- `if !p { return Err(e) }`. -/
def check (p : Prop) [Decidable p] (e : E) : Result E Unit := Fallible.ensure p (.error e)

/-- `a.require_auth()`, in a call authorized by `auths`. -/
def requireAuth (auths : List Address) (a : Address) : Result E Unit :=
  Fallible.ensure (a ∈ auths) .trap

/-- `o.ok_or(e)?`. -/
def okOr (o : Option α) (e : E) : Result E α := Fallible.orThrow o (.error e)

/-- The value of a sub-call that must not fail. -/
def unwrap (o : Option α) : Result E α := Fallible.orThrow o .trap

@[simp] theorem check_eq_ok {p : Prop} [Decidable p] {e : E} {u : Unit} :
    check p e = .ok u ↔ p := Fallible.ensure_eq_ok

@[simp] theorem requireAuth_eq_ok {auths : List Address} {a : Address} {u : Unit} :
    (requireAuth auths a : Result E Unit) = .ok u ↔ a ∈ auths := Fallible.ensure_eq_ok

@[simp] theorem okOr_eq_ok {o : Option α} {e : E} {a : α} : okOr o e = .ok a ↔ o = some a :=
  Fallible.orThrow_eq_ok

@[simp] theorem unwrap_eq_ok {o : Option α} {a : α} :
    (unwrap o : Result E α) = .ok a ↔ o = some a := Fallible.orThrow_eq_ok

end Host

end InverseArena
