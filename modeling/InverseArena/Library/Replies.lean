import InverseArena.Library.Sequential

/-!
# The replies to a program

What one of many interleaved programs has been told, and what that says of it.

Results:
* `result_of_run`: a program that has ended is an execution of its own replies, whatever the
  other programs have done in between.
* `told_of_run`: what a reply says still holds, if nothing makes it false.
-/

namespace Async

open Transition

variable {ρ : Type} {Ans : ρ → Type} {ε α σ μ C : Type}

/-! ## The replies in a history -/

/-- The replies to the `i`-th program, the first one first. -/
def repliesTo (i : ℕ) : List (System Ans ε α σ × Event Ans ε C μ) → List (Reply Ans ε)
  | [] => []
  | (_, .reply j r) :: tr => if j = i then repliesTo i tr ++ [r] else repliesTo i tr
  | _ :: tr => repliesTo i tr

/-- What the `i`-th program was started with. -/
def startOf (i : ℕ) : List (System Ans ε α σ × Event Ans ε C μ) → Option C
  | [] => none
  | (_, .start j c) :: tr => if j = i then some c else startOf i tr
  | _ :: tr => startOf i tr

/-- These replies lead from `p` to `p'`. -/
inductive Reaches : Async Ans ε α → List (Reply Ans ε) → Async Ans ε α → Prop
  | refl {p : Async Ans ε α} : Reaches p [] p
  | await {x : Reply Ans ε} {k : Except ε (Ans x.request) → Async Ans ε α}
      {rs : List (Reply Ans ε)} {p' : Async Ans ε α} :
      Reaches (k x.answer) rs p' → Reaches (.await x.request k) (x :: rs) p'

/-- A server that answers anything. -/
def anything : Server Ans Unit Empty where
  serves _ _ _ _ _ := True
  moves m _ _ := m.elim

variable {p p' : Async Ans ε α} {rs : List (Reply Ans ε)} {i : ℕ}

theorem Reaches.reply {x : Reply Ans ε} {k : Except ε (Ans x.request) → Async Ans ε α}
    (h : Reaches p rs (.await x.request k)) : Reaches p (rs ++ [x]) (k x.answer) := by
  generalize hq : Async.await x.request k = q at h
  induction h with
  | refl =>
    subst hq
    exact .await .refl
  | await _ ih => exact .await (ih hq)

theorem anything_replies (x : Reply Ans ε) :
    (anything : Server Ans Unit Empty).Replies i () x () := by
  cases x with
  | served q a => exact .served trivial
  | lost q a e => exact .lost trivial
  | refused q e => exact .refused

/-- A program that has ended has been executed. -/
theorem Reaches.exec {r : Except ε α} (h : Reaches p rs (.done r)) :
    Exec anything i p () rs r () := by
  generalize hq : Async.done r = q at h
  induction h with
  | refl =>
    subst hq
    exact .done
  | await _ ih => exact .await (anything_replies _) (ih hq)

/-! ## Along a run -/

variable {program : C → Async Ans ε α} {S : Server Ans σ μ} {s : σ} {t : System Ans ε α σ}
variable {tr : List (System Ans ε α σ × Event Ans ε C μ)}

/-- Where a program stands after its replies. -/
theorem reaches_of_run (hrun : Run (System.Step program S) (.idle s) tr t) (i : ℕ) :
    (∀ p, t.running i = some p → ∃ c, startOf i tr = some c ∧
      Reaches (program c) (repliesTo i tr) p) ∧
    (t.running i = none → repliesTo i tr = []) := by
  induction hrun with
  | nil => exact ⟨(fun _ h => nomatch h), fun _ => rfl⟩
  | @snoc tr t ev u _ hs ih =>
    cases hs with
    | @start j c hj =>
      by_cases hji : j = i
      · subst hji
        refine ⟨fun p hp => ⟨c, if_pos rfl, ?_⟩, fun hnone => ?_⟩
        · simp only [Function.update_self, Option.some.injEq] at hp
          subst hp
          show Reaches _ (repliesTo j tr) _
          rw [ih.2 hj]
          exact .refl
        · simp [Function.update_self] at hnone
      · simp only [Function.update_of_ne (Ne.symm hji), startOf, repliesTo, if_neg hji]
        exact ih
    | @reply j s' r k hj hr =>
      by_cases hji : j = i
      · subst hji
        obtain ⟨c, hstart, hreaches⟩ := ih.1 _ hj
        refine ⟨fun p hp => ⟨c, hstart, ?_⟩, fun hnone => ?_⟩
        · simp only [Function.update_self, Option.some.injEq] at hp
          subst hp
          simp only [repliesTo, if_true]
          exact hreaches.reply
        · simp [Function.update_self] at hnone
      · simp only [Function.update_of_ne (Ne.symm hji), startOf, repliesTo, if_neg hji]
        exact ih
    | moved _ => exact ih

/-- What a program ends with is what its replies make of it. -/
theorem result_of_run (hrun : Run (System.Step program S) (.idle s) tr t) {i : ℕ}
    {r : Except ε α} (hi : t.running i = some (.done r)) : ∃ c, startOf i tr = some c ∧
      ∀ {Q : List (Reply Ans ε) → Except ε α → Unit → Prop},
        Ensures anything i (program c) () Q → Q (repliesTo i tr) r () := by
  obtain ⟨c, hstart, hreaches⟩ := (reaches_of_run hrun i).1 _ hi
  exact ⟨c, hstart, fun hQ => hQ _ _ _ hreaches.exec⟩

/-- What each answer says when it is given and what nothing makes false holds of all answers. -/
theorem told_of_run {T : (q : ρ) → Ans q → σ → Prop}
    (htold : ∀ {i q s a s'}, S.serves i q s a s' → T q a s')
    (hserve : ∀ {i q s a s' q' a'}, T q' a' s → S.serves i q s a s' → T q' a' s')
    (hmove : ∀ {m s s' q a}, T q a s → S.moves m s s' → T q a s')
    (hrun : Run (System.Step program S) (.idle s) tr t) (i : ℕ) :
    ∀ q a, Reply.served q a ∈ repliesTo i tr → T q a t.shared := by
  induction hrun with
  | nil => exact fun q a hx => nomatch hx
  | @snoc tr t ev u _ hs ih =>
    cases hs with
    | start _ => exact ih
    | @reply j s' r k hj hr =>
      intro q a hx
      have hold : Reply.served q a ∈ repliesTo i tr → T q a s' := by
        intro hbefore
        cases hr with
        | served hs => exact hserve (ih q a hbefore) hs
        | lost hs => exact hserve (ih q a hbefore) hs
        | refused => exact ih q a hbefore
      by_cases hji : j = i
      · simp only [repliesTo, if_pos hji, List.mem_append, List.mem_singleton] at hx
        obtain hx | rfl := hx
        · exact hold hx
        · cases hr with
          | served hs => exact htold hs
      · simp only [repliesTo, if_neg hji] at hx
        exact hold hx
    | moved hm => exact fun q a hx => hmove (ih q a hx) hm

end Async
