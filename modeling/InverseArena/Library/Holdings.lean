import Mathlib.Tactic.Common
import Mathlib.Logic.Function.Basic

/-!
# Values that places hold

Programs stand in places, and a place may hold values: locks, reservations,
credentials. The values are exclusive if no two programs hold the same one and none
that is held has been taken.

Results:
* `Exclusive.shrink`, `Exclusive.acquire`, `Exclusive.settle`: how one program lets
  values go, gets a new one and has one taken.
-/

namespace Holdings

variable {γ β : Type}

/-- The `i`-th program holds the value. -/
def Held (holds : γ → β → Prop) (gs : ℕ → Option γ) (i : ℕ) (b : β) : Prop :=
  ∃ g ∈ gs i, holds g b

instance (holds : γ → β → Prop) [∀ g b, Decidable (holds g b)] (gs : ℕ → Option γ) (i : ℕ)
    (b : β) : Decidable (Held holds gs i b) :=
  inferInstanceAs (Decidable (∃ g ∈ gs i, holds g b))

/-- No two programs hold the same value, and no value that is held is taken. -/
structure Exclusive (holds : γ → β → Prop) (taken : β → Prop) (gs : ℕ → Option γ) : Prop where
  free : ∀ {i b}, Held holds gs i b → ¬ taken b
  once : ∀ {i j b}, Held holds gs i b → Held holds gs j b → i = j

variable {holds : γ → β → Prop} {taken taken' : β → Prop} {gs : ℕ → Option γ} {i j : ℕ}
variable {o : Option γ} {g : γ} {b : β}

theorem held_of_eq (h : gs i = some g) : Held holds gs i b ↔ holds g b := by
  constructor
  · rintro ⟨g', hg', hb⟩
    cases h.symm.trans hg'
    exact hb
  · exact fun hb => ⟨g, h, hb⟩

theorem held_update_self :
    Held holds (Function.update gs i o) i b ↔ ∃ g ∈ o, holds g b := by
  unfold Held
  rw [Function.update_self]

theorem held_update_of_ne (h : j ≠ i) :
    Held holds (Function.update gs i o) j b ↔ Held holds gs j b := by
  unfold Held
  rw [Function.update_of_ne h]

/-- What is held after one program has moved. -/
theorem held_update (h : Held holds (Function.update gs i o) j b) :
    (∃ g ∈ o, holds g b) ∨ Held holds gs j b := by
  by_cases hj : j = i
  · subst hj
    exact .inl (held_update_self.mp h)
  · exact .inr ((held_update_of_ne hj).mp h)

/-- A program that moves holds no more than before. -/
theorem held_of_update (hle : ∀ g ∈ o, ∀ b, holds g b → Held holds gs i b)
    (h : Held holds (Function.update gs i o) j b) : Held holds gs j b := by
  by_cases hj : j = i
  · subst hj
    obtain ⟨g, hg, hb⟩ := held_update_self.mp h
    exact hle g hg b hb
  · exact (held_update_of_ne hj).mp h

/-- A program moves from one place to another, where it holds no more. -/
theorem held_of_moved {g' : γ} (hi : gs i = some g)
    (h : Held holds (Function.update gs i (some g')) j b) (hle : ∀ b, holds g' b → holds g b) :
    Held holds gs j b := by
  refine held_of_update ?_ h
  rintro _ ⟨⟩ b hb
  exact (held_of_eq hi).mpr (hle b hb)

/-- A program moves to a place where it holds more. -/
theorem held_of_grown {g' : γ} {new : β → Prop} (hi : gs i = some g)
    (h : Held holds (Function.update gs i (some g')) j b)
    (hle : ∀ b, holds g' b → holds g b ∨ new b) : Held holds gs j b ∨ j = i ∧ new b := by
  by_cases hj : j = i
  · subst hj
    obtain ⟨_, ⟨⟩, hb⟩ := held_update_self.mp h
    rcases hle b hb with hb | hb
    · exact .inl ((held_of_eq hi).mpr hb)
    · exact .inr ⟨rfl, hb⟩
  · exact .inl ((held_update_of_ne hj).mp h)

theorem not_held_nobody : ¬ Held holds (fun _ => none) i b := by
  rintro ⟨g, ⟨⟩, -⟩

theorem Exclusive.nobody : Exclusive holds taken fun _ => none where
  free h := absurd h not_held_nobody
  once h := absurd h not_held_nobody

/-- One program moves: what it holds then must be free, and the values of the others
    must stay so. -/
theorem Exclusive.update (h : Exclusive holds taken gs)
    (hself : ∀ g ∈ o, ∀ b, holds g b → ¬ taken' b ∧ ∀ j, j ≠ i → ¬ Held holds gs j b)
    (hothers : ∀ j b, j ≠ i → Held holds gs j b → ¬ taken' b) :
    Exclusive holds taken' (Function.update gs i o) where
  free := by
    intro j b hj
    by_cases hji : j = i
    · subst hji
      obtain ⟨g, hg, hb⟩ := held_update_self.mp hj
      exact (hself g hg b hb).1
    · exact hothers j b hji ((held_update_of_ne hji).mp hj)
  once := by
    intro j k b hj hk
    by_cases hji : j = i
    · subst hji
      by_cases hkj : k = j
      · exact hkj.symm
      · obtain ⟨g, hg, hb⟩ := held_update_self.mp hj
        exact absurd ((held_update_of_ne hkj).mp hk) ((hself g hg b hb).2 k hkj)
    · have hj' := (held_update_of_ne hji).mp hj
      by_cases hki : k = i
      · subst hki
        obtain ⟨g, hg, hb⟩ := held_update_self.mp hk
        exact absurd hj' ((hself g hg b hb).2 j hji)
      · exact h.once hj' ((held_update_of_ne hki).mp hk)

/-- Less is taken than before. -/
theorem Exclusive.mono (h : Exclusive holds taken gs) (hle : ∀ b, taken' b → taken b) :
    Exclusive holds taken' gs where
  free hb ht := h.free hb (hle _ ht)
  once := h.once

/-- A program holds no more than before. -/
theorem Exclusive.shrink (h : Exclusive holds taken gs)
    (ho : ∀ g ∈ o, ∀ b, holds g b → Held holds gs i b) :
    Exclusive holds taken (Function.update gs i o) := by
  refine h.update ?_ ?_
  · intro g hg b hb
    have hi := ho g hg b hb
    exact ⟨h.free hi, fun j hji hj => hji (h.once hj hi)⟩
  · intro j b _ hb
    exact h.free hb

/-- A program gets a free value that nobody holds. -/
theorem Exclusive.acquire (h : Exclusive holds taken gs)
    (ho : ∀ g ∈ o, ∀ b', holds g b' → Held holds gs i b' ∨ b' = b) (hfree : ¬ taken b)
    (hnobody : ∀ j, j ≠ i → ¬ Held holds gs j b) :
    Exclusive holds taken (Function.update gs i o) := by
  refine h.update ?_ ?_
  · intro g hg b' hb'
    rcases ho g hg b' hb' with hi | rfl
    · exact ⟨h.free hi, fun j hji hj => hji (h.once hj hi)⟩
    · exact ⟨hfree, hnobody⟩
  · intro j b' _ hb'
    exact h.free hb'

/-- A value that a program holds is taken, and the program lets it go. -/
theorem Exclusive.settle (h : Exclusive holds taken gs) (hi : Held holds gs i b)
    (ho : ∀ g ∈ o, ∀ b', holds g b' → Held holds gs i b' ∧ b' ≠ b)
    (htaken : ∀ b', taken' b' → taken b' ∨ b' = b) :
    Exclusive holds taken' (Function.update gs i o) := by
  refine h.update ?_ ?_
  · intro g hg b' hb'
    obtain ⟨hi', hne⟩ := ho g hg b' hb'
    refine ⟨fun ht => ?_, fun j hji hj => hji (h.once hj hi')⟩
    rcases htaken b' ht with ht | rfl
    · exact h.free hi' ht
    · exact hne rfl
  · intro j b' hji hj ht
    rcases htaken b' ht with ht | rfl
    · exact h.free hj ht
    · exact hji (h.once hj hi)

end Holdings
