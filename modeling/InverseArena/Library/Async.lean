import Mathlib.Tactic.Common

/-!
# Asynchronous programs

A program that awaits the answers to its requests: between two requests it
computes, and whatever serves the requests may do anything in between. A request
is answered or fails, as a promise is fulfilled or rejected.

Results:
* `run_bind`, `run_handle`: a program executed against a handler of its requests.
* `follows_bind`, `follows_handle`, `Follows.mono`: the rules for what a program
  requests, and in which order, whatever it is answered.
-/

/-- A program: it returns or throws, or it awaits the answer to a request `q` of
    type `Ans q`. -/
inductive Async {ρ : Type} (Ans : ρ → Type) (ε α : Type) : Type where
  | done (r : Except ε α)
  | await (q : ρ) (k : Except ε (Ans q) → Async Ans ε α)

namespace Async

variable {ρ : Type} {Ans : ρ → Type} {ε α β σ : Type}

/-! ## Composition -/

protected def bind : Async Ans ε α → (α → Async Ans ε β) → Async Ans ε β
  | done (.ok a), f => f a
  | done (.error e), _ => done (.error e)
  | await q k, f => await q fun a => (k a).bind f

/-- `p`, with `h` for what it throws. -/
protected def handle : Async Ans ε α → (ε → Async Ans ε α) → Async Ans ε α
  | done (.ok a), _ => done (.ok a)
  | done (.error e), h => h e
  | await q k, h => await q fun a => (k a).handle h

instance : Monad (Async Ans ε) where
  pure a := done (.ok a)
  bind := Async.bind

instance : MonadExcept ε (Async Ans ε) where
  throw e := done (.error e)
  tryCatch := Async.handle

/-- Awaits the answer to `q`. -/
def request (q : ρ) : Async Ans ε (Ans q) := await q done

/-- Goes on if `p` holds, throws `e` otherwise. -/
def check (p : Prop) [Decidable p] (e : ε) : Async Ans ε Unit :=
  if p then pure () else throw e

/-- The value of `o`; throws `e` when there is none. -/
def orThrow (o : Option α) (e : ε) : Async Ans ε α :=
  match o with
  | some a => pure a
  | none => throw e

/-! ## Execution -/

/-- The result of `p` and the final state when `h` answers its requests. -/
def run (h : (q : ρ) → σ → Except ε (Ans q) × σ) : Async Ans ε α → σ → Except ε α × σ
  | done r, s => (r, s)
  | await q k, s => (k (h q s).1).run h (h q s).2

variable (h : (q : ρ) → σ → Except ε (Ans q) × σ)

theorem run_bind (p : Async Ans ε α) (f : α → Async Ans ε β) (s : σ) :
    (p >>= f).run h s = match p.run h s with
      | (.ok a, t) => (f a).run h t
      | (.error e, t) => (.error e, t) := by
  induction p generalizing s with
  | done r =>
    cases r with
    | ok a => rfl
    | error e => rfl
  | await q k ih => exact ih _ _

variable {h} in
theorem run_bind_ok {p : Async Ans ε α} {f : α → Async Ans ε β} {s t : σ} {a : α}
    (hp : p.run h s = (.ok a, t)) : (p >>= f).run h s = (f a).run h t := by
  rw [run_bind, hp]

variable {h} in
theorem run_bind_error {p : Async Ans ε α} {f : α → Async Ans ε β} {s t : σ} {e : ε}
    (hp : p.run h s = (.error e, t)) : (p >>= f).run h s = (.error e, t) := by
  rw [run_bind, hp]

theorem run_handle (p : Async Ans ε α) (f : ε → Async Ans ε α) (s : σ) :
    (tryCatch p f).run h s = match p.run h s with
      | (.ok a, t) => (.ok a, t)
      | (.error e, t) => (f e).run h t := by
  induction p generalizing s with
  | done r =>
    cases r with
    | ok a => rfl
    | error e => rfl
  | await q k ih => exact ih _ _

theorem run_check (p : Prop) [Decidable p] (e : ε) (s : σ) :
    (check p e : Async Ans ε Unit).run h s = if p then (.ok (), s) else (.error e, s) := by
  unfold check
  split_ifs
  · rfl
  · rfl

/-! ## What a program requests -/

/-- A discipline for requests: what may be requested in each state of the
    discipline, what the request can be answered, and the state it leads to. -/
structure Protocol (Ans : ρ → Type) (ε γ : Type) where
  allowed : γ → ρ → Prop
  answers : (q : ρ) → Ans q → Prop
  next : γ → (q : ρ) → Except ε (Ans q) → γ

variable {γ : Type} {P : Protocol Ans ε γ}

/-- Whatever expected answers it gets, `p` requests what the protocol allows
    from `g` on and ends as `Q` says. -/
def Follows (P : Protocol Ans ε γ) : Async Ans ε α → γ → (γ → Except ε α → Prop) → Prop
  | done r, g, Q => Q g r
  | await q k, g, Q => P.allowed g q ∧
      (∀ a, P.answers q a → (k (.ok a)).Follows P (P.next g q (.ok a)) Q) ∧
      ∀ e, (k (.error e)).Follows P (P.next g q (.error e)) Q

variable {g : γ} {Q R : γ → Except ε α → Prop}

@[simp] theorem follows_pure (a : α) :
    (pure a : Async Ans ε α).Follows P g Q ↔ Q g (.ok a) := Iff.rfl

@[simp] theorem follows_throw (e : ε) :
    (throw e : Async Ans ε α).Follows P g Q ↔ Q g (.error e) := Iff.rfl

theorem follows_check (p : Prop) [Decidable p] (e : ε) {Q : γ → Except ε Unit → Prop} :
    (check p e : Async Ans ε Unit).Follows P g Q ↔
      (p → Q g (.ok ())) ∧ (¬ p → Q g (.error e)) := by
  unfold check
  split_ifs with hp
  · simp [hp]
  · simp [hp]

theorem follows_orThrow (o : Option α) (e : ε) :
    (orThrow o e : Async Ans ε α).Follows P g Q ↔
      (∀ a, o = some a → Q g (.ok a)) ∧ (o = none → Q g (.error e)) := by
  cases o with
  | some a => simp [orThrow]
  | none => simp [orThrow]

theorem follows_bind (p : Async Ans ε α) (f : α → Async Ans ε β) {Q : γ → Except ε β → Prop} :
    (p >>= f).Follows P g Q ↔ p.Follows P g fun g r => match r with
      | .ok a => (f a).Follows P g Q
      | .error e => Q g (.error e) := by
  induction p generalizing g with
  | done r =>
    cases r with
    | ok a => rfl
    | error e => rfl
  | await q k ih =>
    show _ ∧ (∀ a, _ → ((k (.ok a)) >>= f).Follows P _ Q) ∧
      (∀ e, ((k (.error e)) >>= f).Follows P _ Q) ↔ _
    simp only [ih]
    rfl

theorem follows_handle (p : Async Ans ε α) (f : ε → Async Ans ε α) :
    (tryCatch p f).Follows P g Q ↔ p.Follows P g fun g r => match r with
      | .ok a => Q g (.ok a)
      | .error e => (f e).Follows P g Q := by
  induction p generalizing g with
  | done r =>
    cases r with
    | ok a => rfl
    | error e => rfl
  | await q k ih =>
    show _ ∧ (∀ a, _ → (tryCatch (k (.ok a)) f).Follows P _ Q) ∧
      (∀ e, (tryCatch (k (.error e)) f).Follows P _ Q) ↔ _
    simp only [ih]
    rfl

theorem Follows.mono {p : Async Ans ε α} (h : p.Follows P g Q) (hQ : ∀ g r, Q g r → R g r) :
    p.Follows P g R := by
  induction p generalizing g with
  | done r => exact hQ _ _ h
  | await q k ih =>
    obtain ⟨hq, hok, herr⟩ := h
    exact ⟨hq, fun a ha => ih _ (hok a ha), fun e => ih _ (herr e)⟩

end Async
