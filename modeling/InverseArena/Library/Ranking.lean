import InverseArena.Library.Pages
import Mathlib.Data.List.Sort
import Mathlib.Order.Defs.LinearOrder

/-!
# Rankings with ties

The lists of given entries by a key, the largest one first, where the entries with the same
key stand in any order.

Results:
* `Ranks.map_key`: all rankings have the same keys in the same places.
* `Ranks.take_perm`: where the key drops from one place to the next, all rankings have the
  same entries up to there.
* `flatMap_page_perm`: pages that are taken from different rankings make up the entries if
  the key drops from each page to the next.
* `exists_repeated`: where it does not, they repeat an entry.
-/

namespace Ranking

variable {α κ : Type*} {key : α → κ} {rows l m : List α} {n : ℕ}

/-! ## Ties -/

/-- The entries at the places `n - 1` and `n` have the same key. -/
def Tied (key : α → κ) (l : List α) (n : ℕ) : Prop := (l.map key)[n - 1]? = (l.map key)[n]?

instance [DecidableEq κ] (key : α → κ) (l : List α) (n : ℕ) : Decidable (Tied key l n) :=
  inferInstanceAs (Decidable (_ = _))

/-- The key drops from each page to the next. -/
def Separated (key : α → κ) (size : ℕ) (l : List α) : Prop :=
  ∀ k < l.length, k ≠ 0 → k * size < l.length → ¬ Tied key l (k * size)

instance [DecidableEq κ] (key : α → κ) (size : ℕ) (l : List α) : Decidable (Separated key size l) :=
  inferInstanceAs (Decidable (∀ k < l.length, _ → _ → _))

theorem Separated.gap {size : ℕ} (h : Separated key size l) (hsize : 0 < size) (k : ℕ) :
    k * size = 0 ∨ l.length ≤ k * size ∨ ¬ Tied key l (k * size) := by
  rcases Nat.eq_zero_or_pos k with rfl | hk
  · exact .inl (Nat.zero_mul size)
  · rcases Nat.lt_or_ge (k * size) l.length with hlt | hge
    · exact .inr (.inr (h k ((Nat.le_mul_of_pos_right k hsize).trans_lt hlt) (by omega) hlt))
    · exact .inr (.inl hge)

/-! ## Rankings -/

variable [LinearOrder κ]

/-- `l` ranks the entries `rows`. -/
structure Ranks (key : α → κ) (rows l : List α) : Prop where
  perm : l.Perm rows
  sorted : l.Pairwise fun a b => key b ≤ key a

theorem Ranks.map_key (hl : Ranks key rows l) (hm : Ranks key rows m) :
    l.map key = m.map key := by
  have hsorted : ∀ {l}, Ranks key rows l → (l.map key).Pairwise (· ≥ ·) := fun h =>
    List.pairwise_map.mpr h.sorted
  exact ((hl.perm.trans hm.perm.symm).map key).eq_of_pairwise
    (fun _ _ _ _ hab hba => le_antisymm hba hab) (hsorted hl) (hsorted hm)

theorem Ranks.tied_iff (hl : Ranks key rows l) (hm : Ranks key rows m) :
    Tied key l n ↔ Tied key m n := by
  unfold Tied
  rw [hl.map_key hm]

/-- Where the key drops, the entries before are those with a larger key. -/
theorem Ranks.take_eq_filter (hl : Ranks key rows l) (hpos : 0 < n) (hn : n < l.length)
    (hgap : ¬ Tied key l n) : l.take n = l.filter fun a => key l[n] < key a := by
  have hlast : key l[n] < key l[n - 1] := by
    have hle : key l[n] ≤ key l[n - 1] :=
      List.pairwise_iff_getElem.mp hl.sorted (n - 1) n (by omega) hn (by omega)
    refine lt_of_le_of_ne hle fun heq => hgap ?_
    unfold Tied
    rw [List.getElem?_map, List.getElem?_map, List.getElem?_eq_getElem hn,
      List.getElem?_eq_getElem (by omega), Option.map_some, Option.map_some, heq]
  have hfront : ∀ a ∈ l.take n, decide (key l[n] < key a) = true := by
    intro a ha
    obtain ⟨i, hi, rfl⟩ := List.mem_take_iff_getElem.mp ha
    refine decide_eq_true (hlast.trans_le ?_)
    rcases Nat.lt_or_ge i (n - 1) with hlt | hge
    · exact List.pairwise_iff_getElem.mp hl.sorted i (n - 1) (by omega) (by omega) hlt
    · have hi' : i = n - 1 := by omega
      subst hi'
      exact le_rfl
  have hback : ∀ a ∈ l.drop n, ¬ decide (key l[n] < key a) = true := by
    intro a ha
    obtain ⟨i, hi, rfl⟩ := List.mem_drop_iff_getElem.mp ha
    rw [decide_eq_true_iff, not_lt]
    rcases Nat.eq_zero_or_pos i with rfl | hpos
    · exact le_rfl
    · exact List.pairwise_iff_getElem.mp hl.sorted n (n + i) hn (by omega) (by omega)
  generalize key l[n] = least at hfront hback
  have hsplit := List.filter_append (p := fun a => decide (least < key a)) (l.take n) (l.drop n)
  rw [List.take_append_drop, List.filter_eq_self.mpr hfront, List.filter_eq_nil_iff.mpr hback,
    List.append_nil] at hsplit
  exact hsplit.symm

/-- Where the key drops, all rankings have the same entries before. -/
theorem Ranks.take_perm (hl : Ranks key rows l) (hm : Ranks key rows m)
    (hgap : n = 0 ∨ l.length ≤ n ∨ ¬ Tied key l n) : (l.take n).Perm (m.take n) := by
  have hlength : l.length = m.length := (hl.perm.trans hm.perm.symm).length_eq
  rcases Nat.eq_zero_or_pos n with rfl | hpos
  · rfl
  · by_cases hn : n < l.length
    · have hdrop := (hgap.resolve_left (by omega)).resolve_left (by omega)
      have hkeys : key l[n] = key m[n] := by
        have hsame := congrArg (·[n]?) (hl.map_key hm)
        simpa [List.getElem?_eq_getElem hn, List.getElem?_eq_getElem (hlength ▸ hn)] using hsame
      rw [hl.take_eq_filter hpos hn hdrop,
        hm.take_eq_filter hpos (hlength ▸ hn) (mt (hl.tied_iff hm).mpr hdrop), hkeys]
      exact (hl.perm.trans hm.perm.symm).filter _
    · rw [List.take_of_length_le (by omega), List.take_of_length_le (by omega)]
      exact hl.perm.trans hm.perm.symm

/-! ## Pages of different rankings -/

/-- If the key drops from each page to the next, pages that are taken from any rankings make
    up the first entries of each ranking. -/
theorem flatMap_page_perm {size : ℕ} {rankings : ℕ → List α} (hsize : 0 < size)
    (hrankings : ∀ k, Ranks key rows (rankings k)) (hl : Ranks key rows l)
    (hseparated : Separated key size l) (pages : ℕ) :
    ((List.range pages).flatMap fun k => Pages.page size (rankings k) k).Perm
      (l.take (pages * size)) := by
  induction pages with
  | zero => simp
  | succ pages ih =>
    have hsame : ∀ k, (l.take (k * size)).Perm ((rankings pages).take (k * size)) := fun k =>
      hl.take_perm (hrankings pages) (hseparated.gap hsize k)
    have hnext : (rankings pages).take (pages * size) ++ Pages.page size (rankings pages) pages =
        (rankings pages).take ((pages + 1) * size) := by
      rw [Nat.succ_mul, List.take_add]
      rfl
    rw [List.range_succ, List.flatMap_append, List.flatMap_singleton]
    refine ((ih.trans (hsame pages)).append_right _).trans ?_
    rw [hnext]
    exact (hsame (pages + 1)).symm

/-- Two neighbours with the same key may change places. -/
theorem Ranks.swap {u v : List α} {a b : α} (h : Ranks key rows (u ++ a :: b :: v))
    (htied : key a = key b) : Ranks key rows (u ++ b :: a :: v) where
  perm := (List.Perm.append_left u (List.Perm.swap a b v)).trans h.perm
  sorted := by
    have hkeys : (u ++ b :: a :: v).map key = (u ++ a :: b :: v).map key := by
      simp only [List.map_append, List.map_cons, htied]
    have hsorted : ((u ++ a :: b :: v).map key).Pairwise (· ≥ ·) := List.pairwise_map.mpr h.sorted
    rw [← hkeys] at hsorted
    exact List.pairwise_map.mp hsorted

/-- Where the key does not drop from one page to the next, the entry that ends the page may
    begin the next one in another ranking. -/
theorem exists_repeated {size k : ℕ} (hsize : 0 < size) (hl : Ranks key rows l)
    (hn : (k + 1) * size < l.length) (htied : Tied key l ((k + 1) * size)) :
    ∃ m, Ranks key rows m ∧ ∃ a ∈ Pages.page size l k, a ∈ Pages.page size m (k + 1) := by
  obtain ⟨n, hnpos⟩ : ∃ n, (k + 1) * size = n + 1 :=
    Nat.exists_eq_succ_of_ne_zero (Nat.mul_pos (Nat.succ_pos k) hsize).ne'
  have hend : k * size + size = n + 1 := by rw [← hnpos, Nat.succ_mul]
  rw [hnpos] at hn htied
  have hkeys : key l[n] = key l[n + 1] := by
    unfold Tied at htied
    rw [Nat.add_sub_cancel, List.getElem?_map, List.getElem?_map, List.getElem?_eq_getElem hn,
      List.getElem?_eq_getElem (Nat.lt_of_succ_lt hn)] at htied
    exact Option.some.inj htied
  have hsplit : l = l.take n ++ l[n] :: l[n + 1] :: l.drop (n + 2) := by
    rw [← List.drop_eq_getElem_cons hn, ← List.drop_eq_getElem_cons (Nat.lt_of_succ_lt hn),
      List.take_append_drop]
  have hlength : (l.take n).length = n := List.length_take_of_le (by omega)
  refine ⟨l.take n ++ l[n + 1] :: l[n] :: l.drop (n + 2), ?_, l[n], ?_, ?_⟩
  · refine Ranks.swap ?_ hkeys
    rw [← hsplit]
    exact hl
  · refine List.mem_iff_getElem?.mpr ⟨n - k * size, ?_⟩
    rw [Pages.page, List.getElem?_take_of_lt (by omega), List.getElem?_drop,
      show k * size + (n - k * size) = n by omega, List.getElem?_eq_getElem]
  · refine List.mem_iff_getElem?.mpr ⟨0, ?_⟩
    rw [Pages.page, List.getElem?_take_of_lt hsize, List.getElem?_drop, hnpos,
      List.getElem?_append_right (by omega), hlength, show n + 1 + 0 - n = 1 by omega]
    rfl

end Ranking
