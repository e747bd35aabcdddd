import Mathlib.Tactic.Common
import Mathlib.Data.List.Count

/-!
# Runs of labelled transition systems

A system is a relation `step : σ → α → σ → Prop`: state, label, next state. A
run keeps the list of the steps it took, newest first, each with the state it
was taken in, so that properties of whole histories can be stated.

Results:
* `Run.invariant`, `Run.invariant_of_forall`, `Run.history`: the induction
  rules (an invariant of states; of states under a condition on the steps; of
  histories and states together).
* `Run.occurred`: what a kind of step establishes and every step keeps holds
  at the end of each run in which such a step occurs.
* `Run.countP_le_one`: a kind of step that spends a stable flag it needs
  occurs at most once.
* `Run.countP_spend`: a kind of step that spends what another kind opens occurs
  at most as often.
* `Run.alongRun`, `Run.alongRun_iff`, `Run.alongRun_iff_of_each`: a property
  holds at every point of the runs (of exactly the runs) whose steps each keep it.
* `exists_run_of_replay`: what is computed by executing moves is a run.
* `Run.not_both`: two kinds of steps with incompatible stable outcomes never
  occur in one run.
-/

namespace Transition

variable {σ α : Type*}

/-- `Run step s tr t`: from `s` the steps of `tr` (newest first) lead to `t`. -/
inductive Run (step : σ → α → σ → Prop) (s : σ) : List (σ × α) → σ → Prop
  | nil : Run step s [] s
  | snoc {tr : List (σ × α)} {t : σ} {a : α} {u : σ} :
      Run step s tr t → step t a u → Run step s ((t, a) :: tr) u

variable {step : σ → α → σ → Prop} {s t u : σ} {tr tr' : List (σ × α)}

theorem Run.single {a : α} (h : step s a t) : Run step s [(s, a)] t :=
  .snoc .nil h

theorem Run.append (h : Run step s tr t) (h' : Run step t tr' u) : Run step s (tr' ++ tr) u := by
  induction h' with
  | nil => exact h
  | snoc _ hstep ih => exact .snoc ih hstep

/-- An invariant of every step is an invariant of every run. -/
theorem Run.invariant {I : σ → Prop} (hstep : ∀ t a u, I t → step t a u → I u)
    (h : Run step s tr t) (h0 : I s) : I t := by
  induction h with
  | nil => exact h0
  | snoc _ hs ih => exact hstep _ _ _ ih hs

/-- An invariant of the steps that meet `C` is an invariant of the runs all of
    whose steps do. -/
theorem Run.invariant_of_forall {I : σ → Prop} {C : σ → α → Prop}
    (hstep : ∀ t a u, I t → C t a → step t a u → I u)
    (h : Run step s tr t) (hC : ∀ e ∈ tr, C e.1 e.2) (h0 : I s) : I t := by
  induction h with
  | nil => exact h0
  | snoc _ hs ih =>
    exact hstep _ _ _ (ih fun e he => hC e (List.mem_cons_of_mem _ he))
      (hC _ List.mem_cons_self) hs

/-- An invariant that speaks of the history and the state together. -/
theorem Run.history {I : List (σ × α) → σ → Prop} (h0 : I [] s)
    (hstep : ∀ tr t a u, Run step s tr t → I tr t → step t a u → I ((t, a) :: tr) u)
    (h : Run step s tr t) : I tr t := by
  induction h with
  | nil => exact h0
  | snoc hr hs ih => exact hstep _ _ _ _ hr ih hs

/-- An invariant `I` may be assumed of every state of a run. -/
theorem Run.strengthen {I : σ → Prop} (hstep : ∀ t a u, I t → step t a u → I u)
    (h : Run step s tr t) (h0 : I s) : Run (fun t a u => I t ∧ step t a u) s tr t := by
  induction h with
  | nil => exact .nil
  | snoc hr hs ih => exact .snoc ih ⟨hr.invariant hstep h0, hs⟩

/-- A run whose steps all meet `C` is a run of the steps that do. -/
theorem Run.restrict {C : σ → α → Prop} (h : Run step s tr t) (hC : ∀ e ∈ tr, C e.1 e.2) :
    Run (fun t a u => step t a u ∧ C t a) s tr t := by
  induction h with
  | nil => exact .nil
  | snoc _ hs ih =>
    exact .snoc (ih fun e he => hC e (List.mem_cons_of_mem _ he)) ⟨hs, hC _ List.mem_cons_self⟩

/-- What a step of kind `b` establishes, and every step keeps, holds once such
    a step has occurred. -/
theorem Run.occurred {b : α → Bool} {P : σ → Prop}
    (hset : ∀ t a u, step t a u → b a = true → P u)
    (hkeep : ∀ t a u, step t a u → P t → P u)
    (h : Run step s tr t) (hb : ∃ e ∈ tr, b e.2 = true) : P t := by
  induction h with
  | nil => simp at hb
  | snoc _ hs ih =>
    obtain ⟨e, he, hbe⟩ := hb
    rcases List.mem_cons.mp he with rfl | he
    · exact hset _ _ _ hs hbe
    · exact hkeep _ _ _ hs (ih ⟨e, he, hbe⟩)

/-- A kind of step that sets a stable flag, and is not enabled once the flag
    is set, occurs at most once. -/
theorem Run.countP_le_one {b : α → Bool} {spent : σ → Prop}
    (hset : ∀ t a u, step t a u → b a = true → ¬ spent t ∧ spent u)
    (hkeep : ∀ t a u, step t a u → spent t → spent u)
    (h : Run step s tr t) : tr.countP (fun e => b e.2) ≤ 1 := by
  induction h with
  | nil => simp
  | @snoc tr t a u hr hs ih =>
    rw [List.countP_cons]
    by_cases ha : b a = true
    · have hnone : tr.countP (fun e => b e.2) = 0 := by
        rw [List.countP_eq_zero]
        intro e he hbe
        exact (hset _ _ _ hs ha).1
          (hr.occurred (fun t a u h hb => (hset t a u h hb).2) hkeep ⟨e, he, hbe⟩)
      simp [hnone, ha]
    · simpa [ha] using ih

/-- Steps that spend what is due, where only the steps that open it make it due,
    occur at most once for each opening, and once more if it was due at the start. -/
theorem Run.countP_spend {pays opens : α → Bool} {due : σ → Prop} {n : ℕ}
    (hpay : ∀ t a u, step t a u → pays a = true → due t ∧ ¬ due u)
    (hdue : ∀ t a u, step t a u → due u → due t ∨ opens a = true) (h0 : due s → 1 ≤ n)
    (h : Run step s tr t) :
    tr.countP (fun e => pays e.2) ≤ tr.countP (fun e => opens e.2) + n ∧
      (due t → tr.countP (fun e => pays e.2) + 1 ≤ tr.countP (fun e => opens e.2) + n) := by
  induction h with
  | nil => exact ⟨Nat.zero_le _, fun h => by simpa using h0 h⟩
  | @snoc tr t a u _ hs ih =>
    rw [List.countP_cons, List.countP_cons]
    by_cases hp : pays a = true
    · obtain ⟨hdue_t, hnot⟩ := hpay t a u hs hp
      have hold := ih.2 hdue_t
      rw [if_pos hp]
      exact ⟨by omega, fun hdue_u => absurd hdue_u hnot⟩
    · rw [if_neg hp]
      refine ⟨by omega, fun hdue_u => ?_⟩
      rcases hdue t a u hs hdue_u with hdue_t | ho
      · have hold := ih.2 hdue_t
        omega
      · rw [if_pos ho]
        omega

/-- Two kinds of steps whose stable outcomes exclude each other do not occur in
    the same run. -/
theorem Run.not_both {b c : α → Bool} {P Q : σ → Prop} (hPQ : ∀ t, P t → ¬ Q t)
    (hb : ∀ t a u, step t a u → b a = true → P u) (hP : ∀ t a u, step t a u → P t → P u)
    (hc : ∀ t a u, step t a u → c a = true → Q u) (hQ : ∀ t a u, step t a u → Q t → Q u)
    (h : Run step s tr t) : ¬ ((∃ e ∈ tr, b e.2 = true) ∧ ∃ e ∈ tr, c e.2 = true) :=
  fun ⟨hb', hc'⟩ => hPQ t (h.occurred hb hP hb') (h.occurred hc hQ hc')

/-! ## Properties of every point of a history -/

/-- `P` holds after all the steps of a history, and after each of its
    beginnings. -/
def AlongRun (P : List (σ × α) → σ → Prop) : List (σ × α) → σ → Prop
  | [], t => P [] t
  | e :: tr, t => P (e :: tr) t ∧ AlongRun P tr e.1

/-- Every step of a history meets `C`, which may speak of the steps before it. -/
def EachStep (C : List (σ × α) → σ → α → Prop) : List (σ × α) → Prop
  | [] => True
  | e :: tr => C tr e.1 e.2 ∧ EachStep C tr

instance EachStep.decide {C : List (σ × α) → σ → α → Prop} [∀ tr t a, Decidable (C tr t a)] :
    (tr : List (σ × α)) → Decidable (EachStep C tr)
  | [] => isTrue trivial
  | e :: tr =>
    have : Decidable (EachStep C tr) := EachStep.decide tr
    inferInstanceAs (Decidable (C tr e.1 e.2 ∧ EachStep C tr))

theorem EachStep.of_forall {C : List (σ × α) → σ → α → Prop} (h : ∀ tr t a, C tr t a) :
    EachStep C tr := by
  induction tr with
  | nil => trivial
  | cons e tr ih => exact ⟨h tr e.1 e.2, ih⟩

theorem AlongRun.last {P : List (σ × α) → σ → Prop} (h : AlongRun P tr t) : P tr t := by
  cases tr with
  | nil => exact h
  | cons e tr => exact h.1

theorem AlongRun.mono {P Q : List (σ × α) → σ → Prop} (hPQ : ∀ tr t, P tr t → Q tr t)
    (h : AlongRun P tr t) : AlongRun Q tr t := by
  induction tr generalizing t with
  | nil => exact hPQ _ _ h
  | cons e tr ih => exact ⟨hPQ _ _ h.1, ih h.2⟩

/-- A property that the steps meeting `C` keep holds all along the runs whose steps
    all do. -/
theorem Run.alongRun {P : List (σ × α) → σ → Prop} {C : List (σ × α) → σ → α → Prop}
    (h0 : P [] s)
    (hstep : ∀ tr t a u, Run step s tr t → P tr t → C tr t a → step t a u → P ((t, a) :: tr) u)
    (h : Run step s tr t) (hC : EachStep C tr) : AlongRun P tr t := by
  induction h with
  | nil => exact h0
  | @snoc tr t a u hr hs ih =>
    have hold := ih hC.2
    exact ⟨hstep tr t a u hr hold.last hC.1 hs, hold⟩

/-- What holds at the end of each run whose steps meet `C` holds all along them. -/
theorem Run.alongRun_of_each {P : List (σ × α) → σ → Prop} {C : List (σ × α) → σ → α → Prop}
    (hP : ∀ tr t, Run step s tr t → EachStep C tr → P tr t) (h : Run step s tr t)
    (hC : EachStep C tr) : AlongRun P tr t := by
  induction h with
  | nil => exact hP [] s .nil trivial
  | snoc hr hs ih => exact ⟨hP _ _ (.snoc hr hs) hC, ih hC.2⟩

/-- A property that a step keeps exactly when it meets `C` holds all along
    exactly the runs whose steps all do. -/
theorem Run.alongRun_iff {P : List (σ × α) → σ → Prop} {C : List (σ × α) → σ → α → Prop}
    (h0 : P [] s)
    (hstep : ∀ tr t a u, Run step s tr t → P tr t → step t a u → (P ((t, a) :: tr) u ↔ C tr t a))
    (h : Run step s tr t) : AlongRun P tr t ↔ EachStep C tr := by
  induction h with
  | nil => exact iff_of_true h0 trivial
  | @snoc tr t a u hr hs ih =>
    show P _ u ∧ AlongRun P tr t ↔ C tr t a ∧ EachStep C tr
    constructor
    · rintro ⟨hu, hold⟩
      exact ⟨(hstep tr t a u hr hold.last hs).mp hu, ih.mp hold⟩
    · rintro ⟨hc, heach⟩
      have hold := ih.mpr heach
      exact ⟨(hstep tr t a u hr hold.last hs).mpr hc, hold⟩

/-- The same where a step may be judged by what the steps before it met. -/
theorem Run.alongRun_iff_of_each {P : List (σ × α) → σ → Prop} {C : List (σ × α) → σ → α → Prop}
    (h0 : P [] s)
    (hstep : ∀ tr t a u, Run step s tr t → EachStep C tr → step t a u →
      (P ((t, a) :: tr) u ↔ C tr t a))
    (h : Run step s tr t) : AlongRun P tr t ↔ EachStep C tr := by
  induction h with
  | nil => exact iff_of_true h0 trivial
  | @snoc tr t a u hr hs ih =>
    show P _ u ∧ AlongRun P tr t ↔ C tr t a ∧ EachStep C tr
    constructor
    · rintro ⟨hu, hold⟩
      have heach := ih.mp hold
      exact ⟨(hstep tr t a u hr heach hs).mp hu, heach⟩
    · rintro ⟨hc, heach⟩
      exact ⟨(hstep tr t a u hr heach hs).mpr hc, ih.mpr heach⟩

/-! ## Executing a run -/

/-- Executes moves one after another and records the steps they take. -/
def replay {μ : Type*} (next : μ → σ → Option (α × σ)) :
    List μ → List (σ × α) → σ → Option (List (σ × α) × σ)
  | [], tr, s => some (tr, s)
  | m :: ms, tr, s => (next m s).bind fun r => replay next ms ((s, r.1) :: tr) r.2

theorem Run.of_replay {μ : Type*} {next : μ → σ → Option (α × σ)}
    (hnext : ∀ m s a t, next m s = some (a, t) → step s a t) :
    ∀ (ms : List μ) {tr tr' : List (σ × α)} {t u : σ}, Run step s tr t →
      replay next ms tr t = some (tr', u) → Run step s tr' u := by
  intro ms
  induction ms with
  | nil => intro tr tr' t u h hr; cases hr; exact h
  | cons m ms ih =>
    intro tr tr' t u h hr
    obtain ⟨⟨a, v⟩, hm, hrest⟩ := Option.bind_eq_some_iff.mp hr
    exact ih (h.snoc (hnext m t a v hm)) hrest

/-- The labels of executed moves have what each move gives its label. -/
theorem forall_label_of_replay {μ : Type*} {next : μ → σ → Option (α × σ)} {G : μ → Prop}
    {C : α → Prop} (hnext : ∀ m s a t, G m → next m s = some (a, t) → C a) :
    ∀ (ms : List μ) {tr tr' : List (σ × α)} {t u : σ}, (∀ m ∈ ms, G m) → (∀ e ∈ tr, C e.2) →
      replay next ms tr t = some (tr', u) → ∀ e ∈ tr', C e.2 := by
  intro ms
  induction ms with
  | nil => intro tr tr' t u _ htr hr; cases hr; exact htr
  | cons m ms ih =>
    intro tr tr' t u hms htr hr
    obtain ⟨⟨a, v⟩, hm, hrest⟩ := Option.bind_eq_some_iff.mp hr
    refine ih (fun m' hm' => hms m' (List.mem_cons_of_mem m hm')) (fun e he => ?_) hrest
    rcases List.mem_cons.mp he with rfl | he
    · exact hnext m t a v (hms m List.mem_cons_self) hm
    · exact htr e he

/-- A property decided on an executed run holds of some run. -/
theorem exists_run_of_replay {μ : Type*} {next : μ → σ → Option (α × σ)}
    (hnext : ∀ m s a t, next m s = some (a, t) → step s a t) {ms : List μ} {s : σ}
    {P : List (σ × α) → σ → Prop} (h : ∃ r ∈ replay next ms [] s, P r.1 r.2) :
    ∃ tr t, Run step s tr t ∧ P tr t := by
  obtain ⟨⟨tr, t⟩, hr, hP⟩ := h
  exact ⟨tr, t, Run.of_replay hnext ms .nil hr, hP⟩

end Transition
