import InverseArena.Library.Interleaving

/-!
# Programs that run alone

What holds at the end of every execution of a program that nothing else
interferes with, whatever becomes of its requests: served, served with the answer
lost, or refused.

Results:
* `ensures_bind`, `ensures_handle`, `ensures_await`: the rules along the structure
  of a program.
* `Ensures.mono`: the rule of consequence.
* `Exec.bind`, `Exec.handle_error` and the like: executions put together.
-/

namespace Async

variable {ρ : Type} {Ans : ρ → Type} {ε α β σ μ : Type}

/-- Every execution of `p` from `s` ends with replies, a result and a state that
    satisfy `Q`. -/
def Ensures (S : Server Ans σ μ) (i : ℕ) (p : Async Ans ε α) (s : σ)
    (Q : List (Reply Ans ε) → Except ε α → σ → Prop) : Prop :=
  ∀ rs r s', Exec S i p s rs r s' → Q rs r s'

variable {S : Server Ans σ μ} {i : ℕ} {s : σ}
variable {Q R : List (Reply Ans ε) → Except ε α → σ → Prop}

theorem Ensures.mono {p : Async Ans ε α} (h : Ensures S i p s Q)
    (hQ : ∀ rs r s', Q rs r s' → R rs r s') : Ensures S i p s R :=
  fun rs r s' he => hQ rs r s' (h rs r s' he)

@[simp] theorem ensures_done (r : Except ε α) : Ensures S i (.done r) s Q ↔ Q [] r s := by
  constructor
  · intro h
    exact h [] r s .done
  · intro h rs r' s' he
    cases he
    exact h

@[simp] theorem ensures_pure (a : α) :
    Ensures S i (pure a : Async Ans ε α) s Q ↔ Q [] (.ok a) s := ensures_done _

@[simp] theorem ensures_throw (e : ε) :
    Ensures S i (throw e : Async Ans ε α) s Q ↔ Q [] (.error e) s := ensures_done _

theorem ensures_await {q : ρ} {k : Except ε (Ans q) → Async Ans ε α} :
    Ensures S i (.await q k) s Q ↔
      (∀ a s', S.serves i q s a s' →
        Ensures S i (k (.ok a)) s' fun rs r t => Q (.served q a :: rs) r t) ∧
      (∀ a e s', S.serves i q s a s' →
        Ensures S i (k (.error e)) s' fun rs r t => Q (.lost q a e :: rs) r t) ∧
      ∀ e, Ensures S i (k (.error e)) s fun rs r t => Q (.refused q e :: rs) r t := by
  constructor
  · intro h
    refine ⟨?_, ?_, ?_⟩
    · intro a s' hs rs r t he
      exact h _ r t (.await (x := .served q a) (.served hs) he)
    · intro a e s' hs rs r t he
      exact h _ r t (.await (x := .lost q a e) (.lost hs) he)
    · intro e rs r t he
      exact h _ r t (.await (x := .refused q e) .refused he)
  · rintro ⟨hserved, hlost, hrefused⟩ rs r t he
    cases he with
    | await hreply hrest =>
      cases hreply with
      | served hs => exact hserved _ _ hs _ _ _ hrest
      | lost hs => exact hlost _ _ _ hs _ _ _ hrest
      | refused => exact hrefused _ _ _ _ hrest

/-- A request: its reply, whatever becomes of it. -/
theorem ensures_request {q : ρ} {Q : List (Reply Ans ε) → Except ε (Ans q) → σ → Prop} :
    Ensures S i (request q) s Q ↔
      (∀ a s', S.serves i q s a s' → Q [.served q a] (.ok a) s') ∧
      (∀ a e s', S.serves i q s a s' → Q [.lost q a e] (.error e) s') ∧
      ∀ e, Q [.refused q e] (.error e) s := by
  unfold request
  rw [ensures_await]
  simp only [ensures_done]

theorem ensures_bind (p : Async Ans ε α) (f : α → Async Ans ε β)
    {Q : List (Reply Ans ε) → Except ε β → σ → Prop} :
    Ensures S i (p >>= f) s Q ↔ Ensures S i p s fun rs r s' => match r with
      | .ok a => Ensures S i (f a) s' fun rs' r' t => Q (rs ++ rs') r' t
      | .error e => Q rs (.error e) s' := by
  induction p generalizing s Q with
  | done r =>
    rw [ensures_done]
    cases r with
    | ok a => rfl
    | error e => exact ensures_done _
  | await q k ih =>
    show Ensures S i (.await q fun a => (k a >>= f)) s Q ↔ _
    rw [ensures_await, ensures_await]
    simp only [ih]
    rfl

theorem ensures_handle (p : Async Ans ε α) (f : ε → Async Ans ε α) :
    Ensures S i (tryCatch p f) s Q ↔ Ensures S i p s fun rs r s' => match r with
      | .ok a => Q rs (.ok a) s'
      | .error e => Ensures S i (f e) s' fun rs' r' t => Q (rs ++ rs') r' t := by
  induction p generalizing s Q with
  | done r =>
    rw [ensures_done]
    cases r with
    | ok a => exact ensures_done _
    | error e => rfl
  | await q k ih =>
    show Ensures S i (.await q fun a => tryCatch (k a) f) s Q ↔ _
    rw [ensures_await, ensures_await]
    simp only [ih]
    rfl

theorem ensures_check (p : Prop) [Decidable p] (e : ε)
    {Q : List (Reply Ans ε) → Except ε Unit → σ → Prop} :
    Ensures S i (check p e : Async Ans ε Unit) s Q ↔
      (p → Q [] (.ok ()) s) ∧ (¬ p → Q [] (.error e) s) := by
  unfold check
  split_ifs with hp
  · simp [hp]
  · simp [hp]

theorem ensures_orThrow (o : Option α) (e : ε) :
    Ensures S i (orThrow o e : Async Ans ε α) s Q ↔
      (∀ a, o = some a → Q [] (.ok a) s) ∧ (o = none → Q [] (.error e) s) := by
  cases o with
  | some a => simp [orThrow]
  | none => simp [orThrow]

/-! ## Executions put together -/

theorem Exec.pure (a : α) : Exec S i (Pure.pure a : Async Ans ε α) s [] (.ok a) s := .done

theorem Exec.bind {p : Async Ans ε α} {f : α → Async Ans ε β} {rs rs' : List (Reply Ans ε)}
    {a : α} {r : Except ε β} {s' t : σ} (hp : Exec S i p s rs (.ok a) s')
    (hf : Exec S i (f a) s' rs' r t) : Exec S i (p >>= f) s (rs ++ rs') r t := by
  generalize hr : Except.ok a = r₁ at hp
  induction hp with
  | done =>
    subst hr
    exact hf
  | await hreply _ ih => exact .await hreply (ih hf hr)

/-- What a program goes on with may be done at once. -/
theorem Exec.bind_done {p : Async Ans ε α} {f : α → Async Ans ε β} {rs : List (Reply Ans ε)}
    {a : α} {r : Except ε β} {s' : σ} (hp : Exec S i p s rs (.ok a) s') (hf : f a = .done r) :
    Exec S i (p >>= f) s rs r s' := by
  have hdone : Exec S i (f a) s' [] r s' := by
    rw [hf]
    exact .done
  have hbind := hp.bind hdone
  rw [List.append_nil] at hbind
  exact hbind

theorem Exec.bind_error {p : Async Ans ε α} {f : α → Async Ans ε β} {rs : List (Reply Ans ε)}
    {e : ε} {s' : σ} (hp : Exec S i p s rs (.error e) s') :
    Exec S i (p >>= f) s rs (.error e) s' := by
  generalize hr : Except.error e = r₁ at hp
  induction hp with
  | done =>
    subst hr
    exact .done
  | await hreply _ ih => exact .await hreply (ih hr)

theorem Exec.handle {p : Async Ans ε α} {f : ε → Async Ans ε α} {rs : List (Reply Ans ε)} {a : α}
    {s' : σ} (hp : Exec S i p s rs (.ok a) s') : Exec S i (tryCatch p f) s rs (.ok a) s' := by
  generalize hr : Except.ok a = r₁ at hp
  induction hp with
  | done =>
    subst hr
    exact .done
  | await hreply _ ih => exact .await hreply (ih hr)

theorem Exec.handle_error {p : Async Ans ε α} {f : ε → Async Ans ε α}
    {rs rs' : List (Reply Ans ε)} {e : ε} {r : Except ε α} {s' t : σ}
    (hp : Exec S i p s rs (.error e) s') (hf : Exec S i (f e) s' rs' r t) :
    Exec S i (tryCatch p f) s (rs ++ rs') r t := by
  generalize hr : Except.error e = r₁ at hp
  induction hp with
  | done =>
    subst hr
    exact hf
  | await hreply _ ih => exact .await hreply (ih hf hr)

theorem Exec.handle_done {p : Async Ans ε α} {f : ε → Async Ans ε α} {rs : List (Reply Ans ε)}
    {e : ε} {r : Except ε α} {s' : σ} (hp : Exec S i p s rs (.error e) s') (hf : f e = .done r) :
    Exec S i (tryCatch p f) s rs r s' := by
  have hdone : Exec S i (f e) s' [] r s' := by
    rw [hf]
    exact .done
  have hhandle := hp.handle_error hdone
  rw [List.append_nil] at hhandle
  exact hhandle

theorem Exec.served {q : ρ} {a : Ans q} {s' : σ} (h : S.serves i q s a s') :
    Exec S i (request q : Async Ans ε (Ans q)) s [.served q a] (.ok a) s' :=
  .await (x := .served q a) (.served h) .done

theorem Exec.refused (q : ρ) (e : ε) :
    Exec S i (request q : Async Ans ε (Ans q)) s [.refused q e] (.error e) s :=
  .await (x := .refused q e) .refused .done

end Async
