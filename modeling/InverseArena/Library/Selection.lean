import Mathlib.Data.List.Sort
import Mathlib.Tactic.Common

/-!
# Partial selection sort

Repeatedly take the first element with the greatest key out of a list.

Results:
* `bestIndex_spec`: the scan finds the first element with the greatest key.
* `selectTop_eq_take`: what is selected are the first elements of the stable sort.
-/

namespace Selection

variable {α : Type*} (key : α → ℕ)

/-- The scan of `l`, whose first element has index `j`, for an element with a
    greater key than `best`, the key at index `i`. -/
def scanBest : List α → ℕ → ℕ → ℕ → ℕ
  | [], _, _, i => i
  | e :: l, j, best, i =>
    if key e > best then scanBest l (j + 1) (key e) j else scanBest l (j + 1) best i

/-- The index of the first element with the greatest key. -/
def bestIndex : List α → ℕ
  | [] => 0
  | e :: l => scanBest key l 1 (key e) 0

/-- `k` passes, each of which moves the best element to the output. -/
def selectTop : ℕ → List α → List α
  | 0, _ => []
  | k + 1, entries =>
    match entries[bestIndex key entries]? with
    | none => []
    | some e => e :: selectTop k (entries.eraseIdx (bestIndex key entries))

variable {key}

/-- The scan of `l` goes on from `b`, the first element with the greatest key of those
    before it, and finds the first element with the greatest key of all. -/
theorem scanBest_spec (l : List α) : ∀ (pre : List α) (b : α) (mid : List α),
    (∀ x ∈ pre, key x < key b) → (∀ x ∈ mid, key x ≤ key b) →
    ∃ pre' b' post', pre ++ b :: mid ++ l = pre' ++ b' :: post' ∧
      scanBest key l (pre ++ b :: mid).length (key b) pre.length = pre'.length ∧
      (∀ x ∈ pre', key x < key b') ∧ ∀ x ∈ post', key x ≤ key b' := by
  induction l with
  | nil =>
    intro pre b mid hpre hmid
    exact ⟨pre, b, mid, List.append_nil _, rfl, hpre, hmid⟩
  | cons a l ih =>
    intro pre b mid hpre hmid
    unfold scanBest
    by_cases ha : key a > key b
    · have hbefore : ∀ x ∈ pre ++ b :: mid, key x < key a := by
        intro x hx
        rcases List.mem_append.mp hx with hx | hx
        · exact (hpre x hx).trans ha
        · rcases List.mem_cons.mp hx with rfl | hx
          · exact ha
          · exact (hmid x hx).trans_lt ha
      obtain ⟨pre', b', post', heq, hscan, hspec⟩ :=
        ih (pre ++ b :: mid) a [] hbefore (fun _ h => nomatch h)
      refine ⟨pre', b', post', ?_, ?_, hspec⟩
      · rw [← heq]
        simp
      · rw [if_pos ha, ← hscan]
        simp [Nat.add_assoc]
    · have hafter : ∀ x ∈ mid ++ [a], key x ≤ key b := by
        intro x hx
        rcases List.mem_append.mp hx with hx | hx
        · exact hmid x hx
        · rw [List.mem_singleton.mp hx]
          omega
      obtain ⟨pre', b', post', heq, hscan, hspec⟩ := ih pre b (mid ++ [a]) hpre hafter
      refine ⟨pre', b', post', ?_, ?_, hspec⟩
      · rw [← heq]
        simp
      · rw [if_neg ha, ← hscan]
        simp [Nat.add_assoc]

/-- The scan splits a list at the first element with the greatest key. -/
theorem bestIndex_spec {l : List α} (h : l ≠ []) :
    ∃ pre b post, l = pre ++ b :: post ∧ bestIndex key l = pre.length ∧
      (∀ x ∈ pre, key x < key b) ∧ ∀ x ∈ post, key x ≤ key b := by
  cases l with
  | nil => exact absurd rfl h
  | cons e l => exact scanBest_spec l [] e [] (fun _ h => nomatch h) (fun _ h => nomatch h)

/-- A pass moves the element that the scan finds. -/
theorem selectTop_succ {k : ℕ} {l pre post : List α} {b : α} (hl : l = pre ++ b :: post)
    (hbest : bestIndex key l = pre.length) :
    selectTop key (k + 1) l = b :: selectTop key k (pre ++ post) := by
  have hget : l[bestIndex key l]? = some b := by
    rw [hbest, hl, List.getElem?_append_right (Nat.le_refl _)]
    simp
  have herase : l.eraseIdx (bestIndex key l) = pre ++ post := by
    rw [hbest, hl, List.eraseIdx_append_of_length_le (Nat.le_refl _)]
    simp
  rw [selectTop, hget]
  dsimp only
  rw [herase]

/-- The first element selected has the greatest key of all. -/
theorem head?_selectTop {l : List α} (h : l ≠ []) {k : ℕ} (hk : 0 < k) :
    ∃ b ∈ l, (selectTop key k l).head? = some b ∧ ∀ x ∈ l, key x ≤ key b := by
  obtain ⟨pre, b, post, hl, hbest, hpre, hpost⟩ := @bestIndex_spec α key l h
  obtain ⟨k, rfl⟩ : ∃ m, k = m + 1 := ⟨k - 1, by omega⟩
  refine ⟨b, ?_, ?_, ?_⟩
  · rw [hl]
    exact List.mem_append_right _ List.mem_cons_self
  · rw [selectTop_succ hl hbest]
    rfl
  · intro x hx
    rw [hl] at hx
    rcases List.mem_append.mp hx with hx | hx
    · exact (hpre x hx).le
    · rcases List.mem_cons.mp hx with rfl | hx
      · exact Nat.le_refl _
      · exact hpost x hx

/-! ## The stable sort -/

/-- `a` may stand before `b` in descending order of keys. -/
def Above (key : α → ℕ) (a b : α) : Prop := key b ≤ key a

instance (key : α → ℕ) : DecidableRel (Above key) := fun a b =>
  inferInstanceAs (Decidable (key b ≤ key a))

instance (key : α → ℕ) : Std.Total (Above key) := ⟨fun a b => Nat.le_total (key b) (key a)⟩

instance (key : α → ℕ) : IsTrans α (Above key) :=
  ⟨fun _ _ _ h h' => Nat.le_trans h' h⟩

/-- An element goes after those that are above it only. -/
theorem orderedInsert_append {a : α} {l₁ l₂ : List α} (h₁ : ∀ b ∈ l₁, ¬ Above key a b)
    (h₂ : ∀ b ∈ l₂, Above key a b) :
    (l₁ ++ l₂).orderedInsert (Above key) a = l₁ ++ a :: l₂ := by
  induction l₁ with
  | nil =>
    cases l₂ with
    | nil => rfl
    | cons b l₂ => exact List.orderedInsert_cons_of_le _ _ (h₂ b List.mem_cons_self)
  | cons b l₁ ih =>
    rw [List.cons_append, List.orderedInsert_of_not_le _ _ (h₁ b List.mem_cons_self),
      ih fun c hc => h₁ c (List.mem_cons_of_mem _ hc)]
    rfl

/-- The two stable sorts agree. -/
theorem mergeSort_eq_insertionSort (l : List α) :
    l.mergeSort (Above key · ·) = l.insertionSort (Above key) := by
  have htrans : ∀ a b c : α, decide (Above key a b) = true → decide (Above key b c) = true →
      decide (Above key a c) = true := by
    intro a b c h h'
    exact decide_eq_true (Nat.le_trans (of_decide_eq_true h') (of_decide_eq_true h))
  have htotal : ∀ a b : α, (decide (Above key a b) || decide (Above key b a)) = true := by
    intro a b
    rw [Bool.or_eq_true, decide_eq_true_eq, decide_eq_true_eq]
    exact Nat.le_total (key b) (key a)
  induction l with
  | nil => simp
  | cons a l ih =>
    obtain ⟨l₁, l₂, hcons, hl, hbefore⟩ := List.mergeSort_cons htrans htotal a l
    have hsorted : (l₁ ++ a :: l₂).Pairwise (Above key) := by
      rw [← hcons]
      exact List.pairwise_mergeSort' (Above key) (a :: l)
    have hafter := (List.pairwise_cons.mp (List.pairwise_append.mp hsorted).2.1).1
    rw [hcons, List.insertionSort_cons, ← ih, hl]
    exact (orderedInsert_append (by simpa using hbefore) hafter).symm

/-- The first element with the greatest key comes first. -/
theorem insertionSort_append {pre post : List α} {b : α} (hpre : ∀ x ∈ pre, key x < key b)
    (hpost : ∀ x ∈ post, key x ≤ key b) :
    (pre ++ b :: post).insertionSort (Above key) =
      b :: (pre ++ post).insertionSort (Above key) := by
  induction pre with
  | nil => exact List.insertionSort_cons_of_forall_rel _ hpost
  | cons x pre ih =>
    have hx : ¬ Above key x b := Nat.not_le.mpr (hpre x List.mem_cons_self)
    rw [List.cons_append, List.insertionSort_cons,
      ih fun y hy => hpre y (List.mem_cons_of_mem _ hy),
      List.orderedInsert_of_not_le _ _ hx]
    rfl

/-- `k` passes select the first `k` elements of the stable sort. -/
theorem selectTop_eq_take (k : ℕ) (l : List α) :
    selectTop key k l = (l.mergeSort (Above key · ·)).take k := by
  rw [mergeSort_eq_insertionSort]
  induction k generalizing l with
  | zero => rw [List.take_zero]; rfl
  | succ k ih =>
    by_cases hl : l = []
    · subst hl
      rfl
    · obtain ⟨pre, b, post, heq, hbest, hpre, hpost⟩ := @bestIndex_spec α key l hl
      rw [selectTop_succ heq hbest, ih, heq, insertionSort_append hpre hpost, List.take_succ_cons]

end Selection
