import Mathlib.Logic.Function.Basic
import Mathlib.Data.List.Basic
import Mathlib.Algebra.BigOperators.Finprod
import Mathlib.Algebra.Order.BigOperators.Group.Finset

/-!
# Maps as functions, updated key by key

A store is a function from keys to values, written with `Function.update`.

Results:
* `erase_update`, `without_update`: erasing the entries of one more key.
* `finsum_update`: how the total of a finitely supported store changes when
  one value does.
* `sum_move`: moving an amount between two keys keeps every total that covers
  both.
-/

namespace KeyedMap

variable {K V : Type*} [DecidableEq K]

/-- Erasing the entries of one more key `a` of the second coordinate `r`. -/
theorem erase_update {R : Type*} [DecidableEq R] (m : K × R → Option V) (a : K) (r : R)
    (l : List K) :
    (fun k => if k.2 = r ∧ k.1 ∈ l then none else Function.update m (a, r) none k) =
      fun k => if k.2 = r ∧ k.1 ∈ a :: l then none else m k := by
  funext k
  by_cases hk : k = (a, r)
  · subst hk; simp
  · have hne : ¬ (k.2 = r ∧ k.1 = a) := fun h => hk (Prod.ext h.2 h.1)
    rw [Function.update_of_ne hk]
    by_cases hl : k.2 = r ∧ k.1 ∈ l
    · rw [if_pos hl, if_pos ⟨hl.1, List.mem_cons_of_mem _ hl.2⟩]
    · rw [if_neg hl, if_neg]
      rintro ⟨hr, hmem⟩
      rcases List.mem_cons.mp hmem with ha | hmem
      · exact hne ⟨hr, ha⟩
      · exact hl ⟨hr, hmem⟩

/-- The values of a map whose keys in `l` are erased. -/
def without (m : K → Option V) (l : List K) : K → Option V := fun k => if k ∈ l then none else m k

theorem without_of_mem {m : K → Option V} {l : List K} {k : K} (h : k ∈ l) :
    without m l k = none := if_pos h

theorem without_of_notMem {m : K → Option V} {l : List K} {k : K} (h : k ∉ l) :
    without m l k = m k := if_neg h

@[simp] theorem without_nil (m : K → Option V) : without m [] = m := by
  funext k
  simp [without]

theorem without_update (m : K → Option V) (a : K) (l : List K) :
    without (Function.update m a none) l = without m (a :: l) := by
  funext k
  unfold without
  by_cases hk : k = a
  · subst hk
    simp
  · simp [hk]

/-! ## Totals -/

/-- The amount `x` moved from key `a` to key `b`. -/
def move (m : K → ℤ) (a b : K) (x : ℤ) : K → ℤ :=
  let m := Function.update m a (m a - x)
  Function.update m b (m b + x)

theorem move_apply (m : K → ℤ) (a b : K) (x : ℤ) (k : K) :
    move m a b x k = m k - (if k = a then x else 0) + (if k = b then x else 0) := by
  unfold move
  by_cases h1 : k = a <;> by_cases h2 : k = b
  · subst h1; subst h2; simp
  · subst h1; simp [h2]
  · subst h2; simp [h1]
  · simp [h1, h2]

theorem move_nonneg {m : K → ℤ} (hm : ∀ k, 0 ≤ m k) {a b : K} {x : ℤ} (h0 : 0 ≤ x)
    (hx : x ≤ m a) (k : K) : 0 ≤ move m a b x k := by
  rw [move_apply]
  have := hm k
  by_cases h1 : k = a
  · subst h1; rw [if_pos rfl]; split_ifs <;> omega
  · rw [if_neg h1]; split_ifs <;> omega

theorem sum_move (m : K → ℤ) {a b : K} (x : ℤ) {S : Finset K} (ha : a ∈ S) (hb : b ∈ S) :
    ∑ k ∈ S, move m a b x k = ∑ k ∈ S, m k := by
  simp only [move_apply, Finset.sum_add_distrib, Finset.sum_sub_distrib, Finset.sum_ite_eq', ha, hb,
    if_true]
  omega

/-- The total of a finitely supported store after one write. -/
theorem finsum_update {m : K → ℤ} (hm : (Function.support m).Finite) (k : K) (v : ℤ) :
    ∑ᶠ x, Function.update m k v x = (∑ᶠ x, m x) - m k + v := by
  have hsub : Function.support m ⊆ ↑(insert k hm.toFinset) := by
    intro x hx; simp [Function.mem_support.mp hx]
  have hsub' : Function.support (Function.update m k v) ⊆ ↑(insert k hm.toFinset) := by
    intro x hx
    by_cases hxk : x = k
    · simp [hxk]
    · rw [Function.mem_support, Function.update_of_ne hxk] at hx
      simp [hx]
  have hk : k ∈ insert k hm.toFinset := Finset.mem_insert_self _ _
  rw [finsum_eq_sum_of_support_subset _ hsub, finsum_eq_sum_of_support_subset _ hsub',
    Finset.sum_update_of_mem hk, ← Finset.add_sum_erase _ m hk, Finset.sdiff_singleton_eq_erase]
  omega

theorem support_update_finite {m : K → ℤ} (hm : (Function.support m).Finite) (k : K) (v : ℤ) :
    (Function.support (Function.update m k v)).Finite := by
  apply (hm.insert k).subset
  intro x hx
  by_cases hxk : x = k
  · exact Or.inl hxk
  · rw [Function.mem_support, Function.update_of_ne hxk] at hx
    exact Or.inr hx

/-- In a store of non-negative amounts no single one exceeds the total. -/
theorem le_finsum {m : K → ℤ} (hm : (Function.support m).Finite) (h0 : ∀ k, 0 ≤ m k) (k : K) :
    m k ≤ ∑ᶠ x, m x := by
  have hsub : Function.support m ⊆ ↑(insert k hm.toFinset) := by
    intro x hx; simp [Function.mem_support.mp hx]
  rw [finsum_eq_sum_of_support_subset _ hsub]
  exact Finset.single_le_sum (fun x _ => h0 x) (Finset.mem_insert_self _ _)

end KeyedMap
