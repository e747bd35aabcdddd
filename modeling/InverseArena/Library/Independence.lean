import Mathlib.Data.List.Basic
import Mathlib.Tactic.Common

/-!
# Independent actions

Actions on a state have owners and results. If the actions of different owners do not
influence each other, as far as a view of the state shows, then it only matters in which
order each owner acts.

Results:
* `Independent.reordered`: two orders in which each owner's actions are in the same
  order give every action the same result and lead to the same state.
-/

namespace Independence

variable {σ τ α ρ ι : Type*}

/-- Executes actions one after another, and lists each with its result. -/
def performAll (act : α → σ → ρ × σ) : List α → σ → List (α × ρ) × σ
  | [], s => ([], s)
  | a :: l, s =>
    let rest := performAll act l (act a s).2
    ((a, (act a s).1) :: rest.1, rest.2)

/-- Actions of different owners do not influence each other, and an action depends on what
    `view` shows only. -/
structure Independent (act : α → σ → ρ × σ) (owner : α → ι) (view : σ → τ) : Prop where
  congr : ∀ a s s', view s = view s' →
    (act a s).1 = (act a s').1 ∧ view (act a s).2 = view (act a s').2
  result : ∀ a b s, owner a ≠ owner b → (act b (act a s).2).1 = (act b s).1
  comm : ∀ a b s, owner a ≠ owner b → view (act b (act a s).2).2 = view (act a (act b s).2).2

/-- Each owner has the same actions in the same order. -/
def Reordered [DecidableEq ι] (owner : α → ι) (l l' : List α) : Prop :=
  ∀ i, l.filter (owner · = i) = l'.filter (owner · = i)

section Reorderings

variable [DecidableEq ι] {owner : α → ι} {a b : α} {l l' l'' pre post : List α}

theorem Reordered.refl (owner : α → ι) (l : List α) : Reordered owner l l := fun _ => rfl

theorem Reordered.symm (h : Reordered owner l l') : Reordered owner l' l := fun i => (h i).symm

theorem Reordered.trans (h : Reordered owner l l') (h' : Reordered owner l' l'') :
    Reordered owner l l'' := fun i => (h i).trans (h' i)

theorem Reordered.cons (a : α) (h : Reordered owner l l') :
    Reordered owner (a :: l) (a :: l') := by
  intro i
  rw [List.filter_cons, List.filter_cons, h i]

theorem Reordered.swap (hne : owner a ≠ owner b) (l : List α) :
    Reordered owner (a :: b :: l) (b :: a :: l) := by
  intro i
  by_cases ha : owner a = i
  · have hb : owner b ≠ i := fun hb => hne (ha.trans hb.symm)
    simp [ha, hb]
  · simp [List.filter_cons, ha]

theorem Reordered.eq_nil (h : Reordered owner [] l) : l = [] := by
  cases l with
  | nil => rfl
  | cons a l => exact absurd (h (owner a)) (by simp)

/-- The first action is the first one of its owner in the other order. -/
theorem Reordered.exists_of_cons (h : Reordered owner (a :: l) l') : ∃ pre post,
    l' = pre ++ a :: post ∧ (∀ b ∈ pre, owner b ≠ owner a) ∧ Reordered owner l (pre ++ post) := by
  have hfirst : l'.filter (owner · = owner a) = a :: l.filter (owner · = owner a) := by
    rw [← h (owner a)]
    simp
  obtain ⟨pre, post, hl', hpre, -, hpost⟩ := List.filter_eq_cons_iff.mp hfirst
  replace hpre : ∀ b ∈ pre, owner b ≠ owner a := fun b hb => by simpa using hpre b hb
  refine ⟨pre, post, hl', hpre, fun i => ?_⟩
  have hi := h i
  rw [hl'] at hi
  by_cases ha : owner a = i
  · subst ha
    have hnone : pre.filter (owner · = owner a) = [] := by simpa using hpre
    rw [List.filter_append, hnone, List.nil_append]
    exact hpost.symm
  · simpa [List.filter_cons, ha] using hi

end Reorderings

variable {act : α → σ → ρ × σ} {owner : α → ι} {view : σ → τ}

theorem results_cons (a : α) (l : List α) (s : σ) : (performAll act (a :: l) s).1 =
    (a, (act a s).1) :: (performAll act l (act a s).2).1 := rfl

/-- What is not shown does not matter. -/
theorem Independent.performAll_congr (h : Independent act owner view) (l : List α) {s s' : σ}
    (hs : view s = view s') : (performAll act l s).1 = (performAll act l s').1 ∧
      view (performAll act l s).2 = view (performAll act l s').2 := by
  induction l generalizing s s' with
  | nil => exact ⟨rfl, hs⟩
  | cons a l ih =>
    obtain ⟨hresult, hview⟩ := h.congr a s s' hs
    obtain ⟨hrest, hend⟩ := ih hview
    refine ⟨?_, hend⟩
    rw [results_cons, results_cons, hresult, hrest]

variable [DecidableEq ι]

/-- An action may be executed before those of others. -/
theorem Independent.performAll_append (h : Independent act owner view) {a : α}
    {pre : List α} (hpre : ∀ b ∈ pre, owner b ≠ owner a) (post : List α) (s : σ) :
    Reordered (fun e => owner e.1) (performAll act (pre ++ a :: post) s).1
        (performAll act (a :: (pre ++ post)) s).1 ∧
      view (performAll act (pre ++ a :: post) s).2 =
        view (performAll act (a :: (pre ++ post)) s).2 := by
  induction pre generalizing s with
  | nil => exact ⟨.refl _ _, rfl⟩
  | cons b pre ih =>
    have hne := hpre b List.mem_cons_self
    obtain ⟨hresults, hend⟩ := ih (fun c hc => hpre c (List.mem_cons_of_mem _ hc)) (act b s).2
    -- the actions `b` and `a` come first: they are swapped
    obtain ⟨hrest, hview⟩ := h.performAll_congr (pre ++ post) (h.comm b a s hne)
    refine ⟨?_, hend.trans hview⟩
    have hswap : Reordered (fun e : α × ρ => owner e.1)
        ((b, (act b s).1) :: (a, (act a s).1) ::
          (performAll act (pre ++ post) (act a (act b s).2).2).1)
        ((a, (act a s).1) :: (b, (act b s).1) ::
          (performAll act (pre ++ post) (act a (act b s).2).2).1) :=
      @Reordered.swap (α × ρ) ι _ (fun e => owner e.1) (b, _) (a, _) hne _
    have hleft := hresults.cons (b, (act b s).1)
    rw [results_cons a, h.result b a s hne] at hleft
    rw [List.cons_append, results_cons, results_cons, List.cons_append, results_cons,
      h.result a b s hne.symm, ← hrest]
    exact hleft.trans hswap

/-- Only the order of each owner's own actions matters. -/
theorem Independent.reordered (h : Independent act owner view) {l l' : List α}
    (hl : Reordered owner l l') (s : σ) :
    Reordered (fun e => owner e.1) (performAll act l s).1 (performAll act l' s).1 ∧
      view (performAll act l s).2 = view (performAll act l' s).2 := by
  induction l generalizing l' s with
  | nil =>
    rw [hl.eq_nil]
    exact ⟨.refl _ _, rfl⟩
  | cons a l ih =>
    obtain ⟨pre, post, rfl, hpre, hrest⟩ := hl.exists_of_cons
    obtain ⟨hresults, hend⟩ := ih hrest (act a s).2
    obtain ⟨hresults', hend'⟩ := h.performAll_append hpre post s
    exact ⟨(hresults.cons (a, (act a s).1)).trans hresults'.symm, hend.trans hend'.symm⟩

end Independence
