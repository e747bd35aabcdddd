import InverseArena.Library.Transition

/-!
# Roles that change hands in two steps

A role is held by one party at a time. Its holder may offer it to another party, and it
moves when that party accepts. Parties consent to actions.

Results:
* `Role.offered_by_holder`: an offer that stands is the last one of the present holder.
* `Role.succession`: whoever takes the role has consented, and the holder before has offered
  it in its own term.
* `Role.stays_among`: a role never leaves a circle whose members do not offer it outside.
-/

namespace Handover

open Transition

/-- A role in a system with states `σ` and actions `α`; `consents a p` says that the party
    `p` has authorized the action `a`. -/
structure Role (σ α π : Type*) where
  holder : σ → Option π
  offered : σ → Option π
  consents : α → π → Prop
  appoints : α → π → Prop
  offers : α → π → Prop
  accepts : α → Prop

namespace Role

variable {σ α π : Type*} {r : Role σ α π} {step : σ → α → σ → Prop} {s t u : σ} {a : α} {p q : π}
  {tr : List (σ × α)}

/-- Neither held nor offered. -/
def Vacant (r : Role σ α π) (s : σ) : Prop := r.holder s = none ∧ r.offered s = none

/-- What a step may do to a role. -/
inductive Moves (r : Role σ α π) (s : σ) (a : α) (t : σ) : Prop
  | appointed {p : π} : r.appoints a p → r.consents a p → r.holder s = none →
      r.holder t = some p → r.offered t = r.offered s → (∀ q, ¬ r.offers a q) → r.Moves s a t
  | offered {p q : π} : r.offers a q → r.consents a p → r.holder s = some p →
      r.holder t = some p → r.offered t = some q → r.Moves s a t
  | accepted {p q : π} : r.accepts a → r.consents a q → r.holder s = some p →
      r.offered s = some q → r.holder t = some q → r.offered t = none → r.Moves s a t
  | kept : r.holder t = r.holder s → r.offered t = r.offered s → (∀ q, ¬ r.offers a q) →
      r.Moves s a t

/-- `p` has offered the role to `q`; since then it has held it, and nobody has offered it. -/
def HasOffered (r : Role σ α π) (tr : List (σ × α)) (p q : π) : Prop :=
  ∃ newer v b older, tr = newer ++ (v, b) :: older ∧ r.offers b q ∧ r.consents b p ∧
    r.holder v = some p ∧ ∀ e ∈ newer, r.holder e.1 = some p ∧ ∀ x, ¬ r.offers e.2 x

theorem HasOffered.cons (h : r.HasOffered tr p q) (hp : r.holder t = some p)
    (hquiet : ∀ x, ¬ r.offers a x) : r.HasOffered ((t, a) :: tr) p q := by
  obtain ⟨newer, v, b, older, rfl, hoffer, hconsent, hv, hnewer⟩ := h
  refine ⟨(t, a) :: newer, v, b, older, rfl, hoffer, hconsent, hv, fun e he => ?_⟩
  rcases List.mem_cons.mp he with rfl | he
  · exact ⟨hp, hquiet⟩
  · exact hnewer e he

/-- The last step of a history has left the role where it was, given it to its first holder,
    or moved it to a party that accepted the offer of the holder before. -/
def Lawful (r : Role σ α π) : List (σ × α) → σ → Prop
  | [], _ => True
  | (t, a) :: tr, u =>
    r.holder u = r.holder t ∨
      (∃ p, r.appoints a p ∧ r.consents a p ∧ r.holder t = none ∧ r.holder u = some p) ∨
      ∃ p q, r.accepts a ∧ r.consents a q ∧ r.holder t = some p ∧ r.holder u = some q ∧
        r.HasOffered tr p q

section Runs

variable (hmoves : ∀ tr t a u, Run step s tr t → step t a u → r.Moves t a u)
  (hvacant : r.Vacant s) (hrun : Run step s tr t)

include hmoves hvacant hrun

/-- An offer that stands is the last one of the present holder. -/
theorem offered_by_holder : ∀ q, r.offered t = some q →
    ∃ p, r.holder t = some p ∧ r.HasOffered tr p q := by
  induction hrun with
  | nil =>
    intro q hq
    rw [hvacant.2] at hq
    cases hq
  | @snoc tr t a u hr hs ih =>
    intro q hq
    cases hmoves tr t a u hr hs with
    | appointed _ _ hnone _ hsame _ =>
      -- an offer needs a holder who made it
      obtain ⟨p, hp, -⟩ := ih q (hsame ▸ hq)
      rw [hnone] at hp
      cases hp
    | @offered p q' hoffer hconsent hp hp' hq' =>
      obtain rfl := Option.some.inj (hq'.symm.trans hq)
      exact ⟨p, hp', [], t, a, tr, rfl, hoffer, hconsent, hp, by simp⟩
    | accepted _ _ _ _ _ hnone =>
      rw [hnone] at hq
      cases hq
    | kept hholder hsame hquiet =>
      obtain ⟨p, hp, hoffered⟩ := ih q (hsame ▸ hq)
      exact ⟨p, hholder.trans hp, hoffered.cons hp hquiet⟩

/-- Whoever takes the role has consented, and the holder before has offered it in its own
    term. -/
theorem succession : AlongRun r.Lawful tr t := by
  refine hrun.alongRun_of_each (C := fun _ _ _ => True) ?_ (.of_forall fun _ _ _ => trivial)
  intro tr t hrun _
  cases hrun with
  | nil => trivial
  | @snoc tr v a _ hrun hs =>
    cases hmoves tr v a t hrun hs with
    | appointed happoint hconsent hnone hp _ _ =>
      exact .inr (.inl ⟨_, happoint, hconsent, hnone, hp⟩)
    | offered _ _ hp hp' _ => exact .inl (hp'.trans hp.symm)
    | accepted haccept hconsent hp hq hq' _ =>
      obtain ⟨p', hp', hoffered⟩ := r.offered_by_holder hmoves hvacant hrun _ hq
      obtain rfl := Option.some.inj (hp.symm.trans hp')
      exact .inr (.inr ⟨_, _, haccept, hconsent, hp, hq', hoffered⟩)
    | kept hholder _ _ => exact .inl hholder

/-- A role never leaves a circle if only members are appointed and no member offers it
    outside, whatever everybody else does. -/
theorem stays_among {circle : Set π}
    (happoint : ∀ e ∈ tr, ∀ p, r.appoints e.2 p → p ∈ circle)
    (hoffer : ∀ e ∈ tr, ∀ p ∈ circle, r.consents e.2 p → r.holder e.1 = some p →
      ∀ q, r.offers e.2 q → q ∈ circle) :
    ∀ p, r.holder t = some p → p ∈ circle := by
  have hboth : (∀ p, r.holder t = some p → p ∈ circle) ∧
      ∀ q, r.offered t = some q → q ∈ circle := by
    induction hrun with
    | nil =>
      refine ⟨fun p hp => ?_, fun q hq => ?_⟩
      · rw [hvacant.1] at hp
        cases hp
      · rw [hvacant.2] at hq
        cases hq
    | @snoc tr t a u hr hs ih =>
      obtain ⟨hheld, hoffered⟩ := ih (fun e he => happoint e (List.mem_cons_of_mem _ he))
        (fun e he => hoffer e (List.mem_cons_of_mem _ he))
      cases hmoves tr t a u hr hs with
      | @appointed p happ _ _ hp hsame _ =>
        refine ⟨fun p' hp' => ?_, fun q hq => hoffered q (hsame ▸ hq)⟩
        obtain rfl := Option.some.inj (hp.symm.trans hp')
        exact happoint (t, a) List.mem_cons_self p happ
      | @offered p q hoff hconsent hp hp' hq =>
        refine ⟨fun p'' hp'' => hheld p'' (hp.trans (hp'.symm.trans hp'')), fun q' hq' => ?_⟩
        obtain rfl := Option.some.inj (hq.symm.trans hq')
        exact hoffer (t, a) List.mem_cons_self p (hheld p hp) hconsent hp q hoff
      | @accepted p q _ _ _ hq hq' hnone =>
        refine ⟨fun p' hp' => ?_, fun q' hq'' => ?_⟩
        · obtain rfl := Option.some.inj (hq'.symm.trans hp')
          exact hoffered q hq
        · rw [hnone] at hq''
          cases hq''
      | kept hholder hsame _ =>
        exact ⟨fun p hp => hheld p (hholder ▸ hp), fun q hq => hoffered q (hsame ▸ hq)⟩
  exact hboth.1

end Runs

end Role

end Handover
