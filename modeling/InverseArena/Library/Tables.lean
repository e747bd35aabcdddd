import Mathlib.Algebra.BigOperators.Group.List.Basic
import Mathlib.Algebra.GroupWithZero.Nat
import Mathlib.Data.Finset.Card

/-!
# Counting the rows of a table

Rows that are counted by a key, and the difference of two counts in the place of the count of a
difference.

Results:
* `length_filter_mem`: the rows with one of some keys, key by key.
* `sum_sub_sum`: the difference of two counts, where one kind of rows is among the other.
* `card_sub_eq_card_filter_iff`: when the difference of two sizes is the size of the difference.
-/

namespace Tables

variable {α κ : Type*} [DecidableEq κ] {f : α → κ}

/-- The rows with one of the keys `ks` are those with each of them. -/
theorem length_filter_mem {ks : List κ} (hks : ks.Nodup) (l : List α) :
    (l.filter (f · ∈ ks)).length = (ks.map fun k => (l.filter (f · = k)).length).sum := by
  induction ks with
  | nil => simp
  | cons k ks ih =>
    obtain ⟨hk, hks⟩ := List.nodup_cons.mp hks
    rw [List.map_cons, List.sum_cons, ← ih hks, ← List.countP_eq_length_filter,
      ← List.countP_eq_length_filter, ← List.countP_eq_length_filter,
      List.countP_eq_countP_filter_add l _ (f · = k), List.countP_filter, List.countP_filter]
    congr 1
    · refine List.countP_congr fun a _ => ?_
      simp +contextual
    · refine List.countP_congr fun a _ => ?_
      have hne : f a ∈ ks → f a ≠ k := fun hmem heq => hk (heq ▸ hmem)
      simp only [List.mem_cons, Bool.decide_or, Bool.and_eq_true, Bool.or_eq_true,
        decide_eq_true_eq, Bool.not_eq_true', decide_eq_false_iff_not]
      tauto

/-- Where the rows that are subtracted are among those that are counted, the others remain. -/
theorem sum_sub_sum {p q : α → Bool} {l : List α} (hle : ∀ a ∈ l, q a = true → p a = true) :
    (l.map fun a => if p a then 1 else 0).sum - (l.map fun a => if q a then 1 else 0).sum =
      (l.filter fun a => p a && !q a).length := by
  suffices hadd : (l.filter fun a => p a && !q a).length +
      (l.map fun a => if q a then 1 else 0).sum = (l.map fun a => if p a then 1 else 0).sum by
    omega
  induction l with
  | nil => rfl
  | cons a l ih =>
    have hrest := ih fun b hb => hle b (List.mem_cons_of_mem a hb)
    have hhead := hle a List.mem_cons_self
    rw [List.map_cons, List.map_cons, List.sum_cons, List.sum_cons, ← hrest]
    cases hp : p a with
    | false =>
      have hq : q a = false := by
        rw [Bool.eq_false_iff]
        exact fun hq => by simp [hhead hq] at hp
      simp [hp, hq]
    | true =>
      cases hq : q a with
      | false => simp [hp, hq]; omega
      | true => simp [hp, hq]; omega

/-- The difference of the sizes is the size of the difference exactly if one set contains the
    other. -/
theorem card_sub_eq_card_filter_iff (s t : Finset κ) :
    s.card - t.card = (s.filter (· ∉ t)).card ↔ t ⊆ s ∨ s ⊆ t := by
  have hs : (s.filter (· ∈ t)).card + (s.filter (· ∉ t)).card = s.card :=
    Finset.card_filter_add_card_filter_not _
  have hinter : s.filter (· ∈ t) ⊆ t := fun a ha => (Finset.mem_filter.mp ha).2
  have hle := Finset.card_le_card hinter
  constructor
  · intro heq
    by_cases hzero : (s.filter (· ∉ t)).card = 0
    · refine .inr fun a ha => ?_
      by_contra hnot
      exact Finset.card_ne_zero_of_mem (Finset.mem_filter.mpr ⟨ha, hnot⟩) hzero
    · have hall : s.filter (· ∈ t) = t := Finset.eq_of_subset_of_card_le hinter (by omega)
      exact .inl fun a ha => (Finset.mem_filter.mp (hall.symm ▸ ha)).1
  · rintro (hsub | hsub)
    · have hall : s.filter (· ∈ t) = t := by
        ext a
        rw [Finset.mem_filter]
        exact ⟨And.right, fun ha => ⟨hsub ha, ha⟩⟩
      rw [hall] at hs
      omega
    · have hall : s.filter (· ∈ t) = s := Finset.filter_true_of_mem fun a ha => hsub ha
      rw [hall] at hs hle
      omega

end Tables
