import InverseArena.Arena.Types
import InverseArena.Library.MachineInt

/-!
# The rules of a round and of the lifecycle

`contract/arena/src/eliminations.rs` (the minority wins) and
`contract/arena/src/state_machine.rs` (which state changes are legal).

Results:
* `isEliminated_eq_true`: among revealed choices, a player is out iff the other
  side has votes and this side has strictly more.
* `exists_not_eliminated`: a non-empty tally never eliminates both sides.
-/

namespace InverseArena.Arena

open Host MachineInt

/-! ## Eliminations -/

/-- `Tally`. -/
structure Tally where
  heads : ℕ
  tails : ℕ
  deriving DecidableEq, Repr

/-- The loop body of `tally_choices`. -/
def Tally.add (t : Tally) : Choice → Tally
  | .Heads => { t with heads := t.heads + 1 }
  | .Tails => { t with tails := t.tails + 1 }

/-- `tally_choices(choices)`. -/
def tallyChoices (choices : List Choice) : Tally := choices.foldl Tally.add ⟨0, 0⟩

/-- `surviving_choice(tally)`. -/
def survivingChoice (tally : Tally) : Option Choice :=
  match tally.heads, tally.tails with
  | 0, 0 => none
  | _, 0 => some .Heads
  | 0, _ => some .Tails
  | heads, tails =>
    if heads = tails then none
    else if heads < tails then some .Heads
    else some .Tails

/-- `is_eliminated(choice, tally)`. -/
def isEliminated (choice : Choice) (tally : Tally) : Bool :=
  match survivingChoice tally with
  | some survivor => choice ≠ survivor
  | none => false

theorem tallyChoices_eq (choices : List Choice) :
    tallyChoices choices = ⟨choices.count .Heads, choices.count .Tails⟩ := by
  have hgen : ∀ (l : List Choice) (t : Tally),
      l.foldl Tally.add t = ⟨t.heads + l.count .Heads, t.tails + l.count .Tails⟩ := by
    intro l
    induction l with
    | nil => intro t; simp
    | cons c l ih =>
      intro t
      rw [List.foldl_cons, ih]
      cases c <;> simp [Tally.add] <;> omega
  have h := hgen choices ⟨0, 0⟩
  simp only [Nat.zero_add] at h
  exact h

/-- The votes for `c`. -/
def Tally.votes (t : Tally) : Choice → ℕ
  | .Heads => t.heads
  | .Tails => t.tails

/-- The votes against `c`. -/
def Tally.against (t : Tally) : Choice → ℕ
  | .Heads => t.tails
  | .Tails => t.heads

theorem isEliminated_eq_true {c : Choice} {t : Tally} (hc : 0 < t.votes c) :
    isEliminated c t = true ↔ 0 < t.against c ∧ t.against c < t.votes c := by
  obtain ⟨heads, tails⟩ := t
  unfold isEliminated survivingChoice
  cases c with
  | Heads =>
    change 0 < heads at hc
    change _ ↔ 0 < tails ∧ tails < heads
    obtain ⟨heads, rfl⟩ : ∃ k, heads = k + 1 := ⟨heads - 1, by omega⟩
    cases tails with
    | zero => simp
    | succ tails =>
      by_cases heq : heads = tails
      · subst heq; simp
      · by_cases hlt : heads < tails
        · simp [heq, hlt]; omega
        · simp [heq, hlt]; omega
  | Tails =>
    change 0 < tails at hc
    change _ ↔ 0 < heads ∧ heads < tails
    obtain ⟨tails, rfl⟩ : ∃ k, tails = k + 1 := ⟨tails - 1, by omega⟩
    cases heads with
    | zero => simp
    | succ heads =>
      by_cases heq : heads = tails
      · subst heq; simp
      · by_cases hlt : heads < tails
        · simp [heq, hlt]
        · simp [heq, hlt]

/-- Whatever was revealed, some revealed choice survives. -/
theorem exists_not_eliminated {choices : List Choice} (h : choices ≠ []) :
    ∃ c ∈ choices, isEliminated c (tallyChoices choices) = false := by
  have hpos : ∀ c ∈ choices, 0 < (tallyChoices choices).votes c := by
    intro c hc
    have := List.count_pos_iff.mpr hc
    rw [tallyChoices_eq]
    cases c <;> simpa [Tally.votes] using hc
  -- the side of an arbitrary revealed choice, or the other one if it has fewer votes
  obtain ⟨c, hc⟩ := List.exists_mem_of_ne_nil _ h
  cases he : isEliminated c (tallyChoices choices) with
  | false => exact ⟨c, hc, he⟩
  | true =>
    obtain ⟨hag, hlt⟩ := (isEliminated_eq_true (hpos c hc)).mp he
    have hother : ∃ d ∈ choices, (tallyChoices choices).votes d = (tallyChoices choices).against c ∧
        (tallyChoices choices).against d = (tallyChoices choices).votes c := by
      rw [tallyChoices_eq] at hag ⊢
      cases c with
      | Heads => exact ⟨.Tails, List.count_pos_iff.mp hag, rfl, rfl⟩
      | Tails => exact ⟨.Heads, List.count_pos_iff.mp hag, rfl, rfl⟩
    obtain ⟨d, hd, hvotes, hagainst⟩ := hother
    refine ⟨d, hd, ?_⟩
    rw [Bool.eq_false_iff]
    intro hde
    have := ((isEliminated_eq_true (hpos d hd)).mp hde).2
    omega

/-! ## Lifecycle -/

/-- `can_transition(from, to)`. -/
def canTransition : GameState → GameState → Bool
  | .Open, .Active | .Open, .Cancelled | .Active, .Open | .Active, .Finished
  | .Active, .Cancelled | .Finished, .Settled => true
  | _, _ => false

/-- `ensure_state(current, expected, err)`. -/
def ensureState (current expected : GameState) (err : ArenaError) : Result ArenaError Unit :=
  check (current = expected) err

/-- `ensure_transition(from, to, err)`. -/
def ensureTransition (source target : GameState) (err : ArenaError) : Result ArenaError Unit :=
  check (canTransition source target = true) err

@[simp] theorem ensureState_eq_ok {current expected : GameState} {err : ArenaError} {u : Unit} :
    ensureState current expected err = .ok u ↔ current = expected := check_eq_ok

@[simp] theorem ensureTransition_eq_ok {source target : GameState} {err : ArenaError} {u : Unit} :
    ensureTransition source target err = .ok u ↔ canTransition source target = true := check_eq_ok

theorem canTransition_active_iff {source : GameState} :
    canTransition source .Active = true ↔ source = .Open := by
  cases source <;> simp [canTransition]

end InverseArena.Arena
