import Mathlib.Data.List.Basic
import Mathlib.Tactic.Common

/-!
# The pages of a list

Results:
* `filterMap_getElem?`: reading the entries of a range one after another gives a slice.
* `flatMap_page`, `flatMap_page_eq`: the pages of a list make up the list.
-/

namespace Pages

variable {α : Type*}

/-- The `k`-th page of `size` entries. -/
def page (size : ℕ) (l : List α) (k : ℕ) : List α := (l.drop (k * size)).take size

theorem filterMap_getElem? (l : List α) (start count : ℕ) :
    (List.range' start count).filterMap (fun i => l[i]?) = (l.drop start).take count := by
  induction count generalizing start with
  | zero => rfl
  | succ count ih =>
    rw [List.range'_succ, List.filterMap_cons, ih (start + 1)]
    cases hi : l[start]? with
    | none =>
      have hlen := List.getElem?_eq_none_iff.mp hi
      rw [List.drop_eq_nil_of_le hlen, List.drop_eq_nil_of_le (Nat.le_succ_of_le hlen),
        List.take_nil, List.take_nil]
    | some a =>
      obtain ⟨hlt, rfl⟩ := List.getElem?_eq_some_iff.mp hi
      rw [List.drop_eq_getElem_cons hlt, List.take_succ_cons]

/-- The first pages make up the first entries. -/
theorem flatMap_page (size : ℕ) (l : List α) (pages : ℕ) :
    (List.range pages).flatMap (page size l) = l.take (pages * size) := by
  induction pages with
  | zero => simp
  | succ pages ih =>
    rw [List.range_succ, List.flatMap_append, ih, List.flatMap_singleton, Nat.succ_mul,
      List.take_add]
    rfl

theorem flatMap_page_eq {size pages : ℕ} {l : List α} (h : l.length ≤ pages * size) :
    (List.range pages).flatMap (page size l) = l := by
  rw [flatMap_page, List.take_of_length_le h]

end Pages
