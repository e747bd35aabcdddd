import InverseArena.Library.Interleaving

/-!
# Where interleaved programs stand

The history of interleaved programs tells where each of them stands in its
protocol, and which of them have been started. Conditions on the schedule can be
stated with these.

Results:
* `follows_of_run`: each program follows the protocol from the place that the history
  gives it.
* `place_of_await`, `place_of_done`: what that says of a program that awaits an
  answer, and of one that has ended.
* `standing_of_history`, `standing_of_run`: the invariant rules for the shared state and
  the places of the programs that have not failed, under a condition on the steps.
* `returned_of_returnedBefore`: a program that has returned stays so.
* `map_placeOf`: what a program keeps wherever it stands.
* `mem_started`: the programs that stand somewhere have been started.
-/

namespace Async

open Transition

variable {ρ : Type} {Ans : ρ → Type} {ε α σ μ C γ : Type}

/-- The program has ended by a throw. -/
def System.failed (t : System Ans ε α σ) (i : ℕ) : Bool :=
  match t.running i with
  | some (.done (.error _)) => true
  | _ => false

/-- The programs that have been started, the last one first. -/
def started : List (System Ans ε α σ × Event Ans ε C μ) → List ℕ
  | [] => []
  | (_, .start i _) :: tr => i :: started tr
  | (_, .reply _ _) :: tr => started tr
  | (_, .moved _) :: tr => started tr

/-- What the program has been started with. -/
def inputOf (i : ℕ) : List (System Ans ε α σ × Event Ans ε C μ) → Option C
  | [] => none
  | (_, .start j c) :: tr => if j = i then some c else inputOf i tr
  | (_, .reply _ _) :: tr => inputOf i tr
  | (_, .moved _) :: tr => inputOf i tr

variable (P : Protocol Ans ε γ) (first : C → γ)

/-- Where the program stands after the history. -/
def placeOf (i : ℕ) : List (System Ans ε α σ × Event Ans ε C μ) → Option γ
  | [] => none
  | (_, .start j c) :: tr => if j = i then some (first c) else placeOf i tr
  | (_, .reply j r) :: tr =>
    if j = i then (placeOf i tr).map fun g => P.next g r.request r.answer else placeOf i tr
  | (_, .moved _) :: tr => placeOf i tr

variable {P first} {S : Server Ans σ μ} {program : C → Async Ans ε α}
variable {Q : γ → Except ε α → Prop} {s : σ} {t u : System Ans ε α σ} {ev : Event Ans ε C μ}
variable {tr : List (System Ans ε α σ × Event Ans ε C μ)} {i j : ℕ}

@[simp] theorem inputOf_start_self (c : C) : inputOf i ((t, .start i c) :: tr) = some c :=
  if_pos rfl

theorem inputOf_start_of_ne (c : C) (h : j ≠ i) :
    inputOf i ((t, .start j c) :: tr) = inputOf i tr := if_neg h

@[simp] theorem inputOf_reply (r : Reply Ans ε) :
    inputOf i ((t, .reply j r) :: tr) = inputOf i tr := rfl

@[simp] theorem placeOf_start_self (c : C) :
    placeOf P first i ((t, .start i c) :: tr) = some (first c) := if_pos rfl

theorem placeOf_start_of_ne (c : C) (h : j ≠ i) :
    placeOf P first i ((t, .start j c) :: tr) = placeOf P first i tr := if_neg h

@[simp] theorem placeOf_reply_self (r : Reply Ans ε) :
    placeOf P first i ((t, .reply i r) :: tr) =
      (placeOf P first i tr).map fun g => P.next g r.request r.answer := if_pos rfl

theorem placeOf_reply_of_ne (r : Reply Ans ε) (h : j ≠ i) :
    placeOf P first i ((t, .reply j r) :: tr) = placeOf P first i tr := if_neg h

@[simp] theorem placeOf_moved (m : μ) :
    placeOf P first i ((t, .moved m) :: tr) = placeOf P first i tr := rfl

/-- Each program follows the protocol from where it stands. -/
theorem follows_of_run (hanswers : ∀ {i q s a s'}, S.serves i q s a s' → P.answers q a)
    (hprogram : ∀ c, (program c).Follows P (first c) Q)
    (hrun : Run (System.Step program S) (.idle s) tr t) (i : ℕ) :
    Option.Rel (fun p g => Async.Follows P p g Q) (t.running i) (placeOf P first i tr) := by
  induction hrun with
  | nil => exact .none
  | @snoc tr t ev u _ hs ih =>
    cases hs with
    | @start j c hj =>
      by_cases hji : j = i
      · subst hji
        rw [placeOf_start_self]
        show Option.Rel _ (Function.update t.running j (some (program c)) j) _
        rw [Function.update_self]
        exact .some (hprogram c)
      · rw [placeOf_start_of_ne c hji]
        show Option.Rel _ (Function.update t.running j (some (program c)) i) _
        rw [Function.update_of_ne (Ne.symm hji)]
        exact ih
    | @reply j s' r k hj hr =>
      by_cases hji : j = i
      · subst hji
        rw [placeOf_reply_self]
        show Option.Rel _ (Function.update t.running j (some (k r.answer)) j) _
        rw [Function.update_self]
        rw [hj] at ih
        cases hg : placeOf P first j tr with
        | none =>
          rw [hg] at ih
          cases ih
        | some g =>
          rw [hg] at ih
          cases ih with
          | some hf => exact .some (follows_reply hf rfl (hr.answers hanswers))
      · rw [placeOf_reply_of_ne r hji]
        show Option.Rel _ (Function.update t.running j (some (k r.answer)) i) _
        rw [Function.update_of_ne (Ne.symm hji)]
        exact ih
    | moved hm => exact ih

section

variable (h : Option.Rel (fun p g => Async.Follows P p g Q) (t.running i) (placeOf P first i tr))

include h

/-- A program that awaits an answer is allowed its request where it stands. -/
theorem place_of_await {q : ρ} {k : Except ε (Ans q) → Async Ans ε α}
    (hi : t.running i = some (.await q k)) : ∃ g, placeOf P first i tr = some g ∧ P.allowed g q := by
  rw [hi] at h
  cases hg : placeOf P first i tr with
  | none =>
    rw [hg] at h
    cases h
  | some g =>
    rw [hg] at h
    cases h with
    | some hf => exact ⟨g, rfl, hf.1⟩

/-- A program that has ended has done so as its protocol says. -/
theorem place_of_done {r : Except ε α} (hi : t.running i = some (.done r)) :
    ∃ g, placeOf P first i tr = some g ∧ Q g r := by
  rw [hi] at h
  cases hg : placeOf P first i tr with
  | none =>
    rw [hg] at h
    cases h
  | some g =>
    rw [hg] at h
    cases h with
    | some hf => exact ⟨g, rfl, hf⟩

end

/-- What every step of the protocol keeps is as it was at the start. -/
theorem map_placeOf {κ : Type} {f : γ → κ} (hf : ∀ g q a, f (P.next g q a) = f g) (i : ℕ)
    (tr : List (System Ans ε α σ × Event Ans ε C μ)) :
    (placeOf P first i tr).map f = (inputOf i tr).map fun c => f (first c) := by
  induction tr with
  | nil => rfl
  | cons e tr ih =>
    obtain ⟨t, ev⟩ := e
    cases ev with
    | start j c =>
      by_cases hji : j = i
      · subst hji
        rw [placeOf_start_self, inputOf_start_self]
        rfl
      · rw [placeOf_start_of_ne c hji, inputOf_start_of_ne c hji]
        exact ih
    | reply j r =>
      by_cases hji : j = i
      · subst hji
        rw [placeOf_reply_self, inputOf_reply, ← ih, Option.map_map]
        congr 1
        funext g
        exact hf g r.request r.answer
      · rw [placeOf_reply_of_ne r hji]
        exact ih
    | moved m => exact ih

/-! ## The programs that have not failed -/

variable (P first) in
/-- Where the program stands, unless it has failed. -/
def standing (tr : List (System Ans ε α σ × Event Ans ε C μ)) (t : System Ans ε α σ) (i : ℕ) :
    Option γ :=
  if t.failed i then none else placeOf P first i tr

theorem standing_of_await {q : ρ} {k : Except ε (Ans q) → Async Ans ε α}
    (h : t.running i = some (.await q k)) : standing P first tr t i = placeOf P first i tr := by
  unfold standing System.failed
  rw [h]
  rfl

theorem standing_of_ok {a : α} (h : t.running i = some (.done (.ok a))) :
    standing P first tr t i = placeOf P first i tr := by
  unfold standing System.failed
  rw [h]
  rfl

theorem standing_eq_some {g : γ} (h : standing P first tr t i = some g) :
    placeOf P first i tr = some g := by
  unfold standing at h
  split at h
  · cases h
  · exact h

/-- Whether a program has failed depends on that program alone. -/
theorem System.failed_congr {t u : System Ans ε α σ} {i : ℕ} (h : t.running i = u.running i) :
    t.failed i = u.failed i := by
  unfold System.failed
  rw [h]

/-- After a step of the program it stands where the step leads, or it has failed. -/
theorem standing_self {g : Option γ} {ev : Event Ans ε C μ}
    (h : placeOf P first i ((t, ev) :: tr) = g) :
    standing P first ((t, ev) :: tr) u i = g ∨ standing P first ((t, ev) :: tr) u i = none := by
  unfold standing
  split
  · exact .inr rfl
  · exact .inl h

theorem standing_congr {ev : Event Ans ε C μ} (hrunning : u.running i = t.running i)
    (hplace : placeOf P first i ((t, ev) :: tr) = placeOf P first i tr) :
    standing P first ((t, ev) :: tr) u i = standing P first tr t i := by
  unfold standing
  rw [System.failed_congr hrunning, hplace]

/-- The place of one program has changed, or the program has failed. -/
theorem eq_update_of_standing {gs gs' : ℕ → Option γ} {g : Option γ}
    (hself : gs' i = g ∨ gs' i = none) (hother : ∀ j, j ≠ i → gs' j = gs j) :
    gs' = Function.update gs i g ∨ gs' = Function.update gs i none := by
  rcases hself with hi | hi
  · left
    rw [Function.eq_update_iff]
    exact ⟨hi, hother⟩
  · right
    rw [Function.eq_update_iff]
    exact ⟨hi, hother⟩

/-- The invariant rule under a condition `K` on the steps, for the history, the shared
    state and the programs that have not failed. -/
theorem standing_of_history
    {I : List (System Ans ε α σ × Event Ans ε C μ) → σ → (ℕ → Option γ) → Prop}
    {K : List (System Ans ε α σ × Event Ans ε C μ) → System Ans ε α σ → Event Ans ε C μ → Prop}
    (hanswers : ∀ {i q s a s'}, S.serves i q s a s' → P.answers q a)
    (hprogram : ∀ c, (program c).Follows P (first c) Q)
    (h0 : I [] s fun _ => none)
    (hended : ∀ {tr s gs} i, I tr s gs → I tr s (Function.update gs i none))
    (hstart : ∀ {tr t i} (c : C), Run (System.Step program S) (.idle s) tr t →
      I tr t.shared (standing P first tr t) → t.running i = none →
      standing P first tr t i = none →
      I ((t, .start i c) :: tr) t.shared
        (Function.update (standing P first tr t) i (some (first c))))
    (hreply : ∀ {tr t i g r k s'}, Run (System.Step program S) (.idle s) tr t →
      K tr t (.reply i r) → I tr t.shared (standing P first tr t) →
      t.running i = some (.await r.request k) → standing P first tr t i = some g →
      P.allowed g r.request → S.Replies i t.shared r s' →
      I ((t, .reply i r) :: tr) s' (Function.update (standing P first tr t) i
        (some (P.next g r.request r.answer))))
    (hmoved : ∀ {tr t m s'}, I tr t.shared (standing P first tr t) → S.moves m t.shared s' →
      I ((t, .moved m) :: tr) s' (standing P first tr t))
    (hrun : Run (System.Step program S) (.idle s) tr t) (hK : EachStep K tr) :
    I tr t.shared (standing P first tr t) := by
  induction hrun with
  | nil => exact h0
  | @snoc tr t ev u hr hs ih =>
    have hI := ih hK.2
    cases hs with
    | @start j c hj =>
      have hnone : standing P first tr t j = none := by
        have hrel : Option.Rel (fun p g => Async.Follows P p g Q) _ (placeOf P first j tr) :=
          follows_of_run hanswers hprogram hr j
        rw [hj] at hrel
        unfold Async.standing
        split
        · rfl
        · exact rel_none hrel
      have hother : ∀ k, k ≠ j →
          standing P first ((t, .start j c) :: tr)
              ⟨t.shared, Function.update t.running j (some (program c))⟩ k =
            standing P first tr t k := by
        intro k hk
        exact standing_congr (Function.update_of_ne hk ..) (placeOf_start_of_ne c hk.symm)
      have hkeep := hstart c hr hI hj hnone
      rcases eq_update_of_standing (standing_self (placeOf_start_self c)) hother with h | h
      · rw [h]
        exact hkeep
      · rw [h]
        have hdropped := hended j hkeep
        rw [Function.update_idem] at hdropped
        exact hdropped
    | @reply j s' r k hj hr' =>
      obtain ⟨g, hg, hallowed⟩ := place_of_await (follows_of_run hanswers hprogram hr j) hj
      have hstanding : standing P first tr t j = some g := (standing_of_await hj).trans hg
      have hkeep := hreply hr hK.1 hI hj hstanding hallowed hr'
      have hplace : placeOf P first j ((t, .reply j r) :: tr) =
          some (P.next g r.request r.answer) := by
        rw [placeOf_reply_self, hg]
        rfl
      have hother : ∀ l, l ≠ j →
          standing P first ((t, .reply j r) :: tr)
              ⟨s', Function.update t.running j (some (k r.answer))⟩ l =
            standing P first tr t l := by
        intro l hl
        exact standing_congr (Function.update_of_ne hl ..) (placeOf_reply_of_ne r hl.symm)
      rcases eq_update_of_standing (standing_self hplace) hother with h | h
      · rw [h]
        exact hkeep
      · rw [h]
        have hdropped := hended j hkeep
        rw [Function.update_idem] at hdropped
        exact hdropped
    | @moved m s' hm =>
      have hsame : standing P first ((t, .moved m) :: tr) ⟨s', t.running⟩ =
          standing P first tr t := by
        funext l
        exact standing_congr rfl (placeOf_moved m)
      rw [hsame]
      exact hmoved hI hm

/-- The invariant rule under a condition `K` on the steps, for the programs that
    have not failed. -/
theorem standing_of_run {I : σ → (ℕ → Option γ) → Prop}
    {K : List (System Ans ε α σ × Event Ans ε C μ) → System Ans ε α σ → Event Ans ε C μ → Prop}
    (hanswers : ∀ {i q s a s'}, S.serves i q s a s' → P.answers q a)
    (hprogram : ∀ c, (program c).Follows P (first c) Q)
    (h0 : I s fun _ => none)
    (hended : ∀ {s gs} i, I s gs → I s (Function.update gs i none))
    (hstart : ∀ {s gs} i (c : C), I s gs → gs i = none →
      I s (Function.update gs i (some (first c))))
    (hreply : ∀ {tr t i g r s'}, K tr t (.reply i r) → I t.shared (standing P first tr t) →
      standing P first tr t i = some g → P.allowed g r.request → S.Replies i t.shared r s' →
      I s' (Function.update (standing P first tr t) i
        (some (P.next g r.request r.answer))))
    (hmoved : ∀ {s gs m s'}, I s gs → S.moves m s s' → I s' gs)
    (hrun : Run (System.Step program S) (.idle s) tr t) (hK : EachStep K tr) :
    I t.shared (standing P first tr t) :=
  standing_of_history (I := fun _ => I) hanswers hprogram h0 (fun i h => hended i h)
    (fun c _ h _ hnone => hstart _ c h hnone)
    (fun _ hK h _ hstanding hallowed hr => hreply hK h hstanding hallowed hr)
    (fun h hm => hmoved h hm) hrun hK

/-! ## Before and after -/

/-- The programs that had been started when the program was. -/
def earlier (i : ℕ) : List (System Ans ε α σ × Event Ans ε C μ) → List ℕ
  | [] => []
  | (_, .start j _) :: tr => if j = i then started tr else earlier i tr
  | (_, .reply _ _) :: tr => earlier i tr
  | (_, .moved _) :: tr => earlier i tr

/-- The program has ended without a throw. -/
def System.returned (t : System Ans ε α σ) (i : ℕ) : Bool :=
  match t.running i with
  | some (.done (.ok _)) => true
  | _ => false

/-- The `i`-th program had returned when the `j`-th one was started. -/
def returnedBefore (i j : ℕ) : List (System Ans ε α σ × Event Ans ε C μ) → Bool
  | [] => false
  | (t, .start k _) :: tr => if k = j then t.returned i else returnedBefore i j tr
  | (_, .reply _ _) :: tr => returnedBefore i j tr
  | (_, .moved _) :: tr => returnedBefore i j tr

theorem earlier_start_of_ne (c : C) (h : j ≠ i) :
    earlier i ((t, .start j c) :: tr) = earlier i tr := if_neg h

theorem returnedBefore_start_of_ne {k : ℕ} (c : C) (h : k ≠ j) :
    returnedBefore i j ((t, .start k c) :: tr) = returnedBefore i j tr := if_neg h

theorem System.exists_of_returned (h : t.returned i = true) :
    ∃ a, t.running i = some (.done (.ok a)) := by
  unfold System.returned at h
  split at h
  · exact ⟨_, ‹_›⟩
  · cases h

/-- A program that has returned does not go on. -/
theorem System.Step.returned (hs : System.Step program S t ev u) (h : t.returned i = true) :
    u.returned i = true := by
  obtain ⟨a, hi⟩ := System.exists_of_returned h
  have hu : ∀ {j p}, t.running j ≠ some (.done (.ok a)) →
      Function.update t.running j p i = some (.done (.ok a)) := by
    intro j p hj
    have hij : i ≠ j := by
      rintro rfl
      exact hj hi
    rw [Function.update_of_ne hij, hi]
  have hrunning : u.running i = some (.done (.ok a)) := by
    cases hs with
    | start hj => exact hu (by rw [hj]; exact nofun)
    | reply hj _ => exact hu (by rw [hj]; exact nofun)
    | moved _ => exact hi
  unfold System.returned
  rw [hrunning]

/-- What had returned has returned. -/
theorem returned_of_returnedBefore (hrun : Run (System.Step program S) (.idle s) tr t)
    (h : returnedBefore i j tr = true) : t.returned i = true := by
  induction hrun with
  | nil => cases h
  | @snoc tr t ev u _ hs ih =>
    have hold : t.returned i = true := by
      cases ev with
      | start k c =>
        unfold returnedBefore at h
        split at h
        · exact h
        · exact ih h
      | reply k r => exact ih h
      | moved m => exact ih h
    exact hs.returned hold

/-- The programs that stand somewhere have been started. -/
theorem mem_started {g : γ} (h : placeOf P first i tr = some g) : i ∈ started tr := by
  induction tr generalizing g with
  | nil => cases h
  | cons e tr ih =>
    obtain ⟨t, ev⟩ := e
    cases ev with
    | start j c =>
      by_cases hji : j = i
      · subst hji
        exact List.mem_cons_self
      · rw [placeOf_start_of_ne c hji] at h
        exact List.mem_cons_of_mem _ (ih h)
    | reply j r =>
      by_cases hji : j = i
      · subst hji
        rw [placeOf_reply_self] at h
        obtain ⟨g', hg', -⟩ := Option.map_eq_some_iff.mp h
        exact ih hg'
      · rw [placeOf_reply_of_ne r hji] at h
        exact ih h
    | moved m => exact ih h

end Async
