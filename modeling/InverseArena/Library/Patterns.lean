import InverseArena.Library.Numbers
import Mathlib.Data.List.Infix

/-!
# Patterns in texts

Searching a text for another one, and for patterns `head\s*mark(inner+)\)` with a group.

Results:
* `firstMatch_append`: a search passes by what comes before a match.
* `not_prefix_of_border`: a text in which the first unit does not come again does not overlap
  itself.
* `matchGroup_eq`: what a pattern matches.
-/

namespace Text

/-- `t.includes(s)`. -/
def includes (t : Text) (s : String) : Bool := decide (ofString s <:+: t)

/-- `\s`. -/
def isSpace (c : ℕ) : Bool :=
  c ∈ [0x09, 0x0A, 0x0B, 0x0C, 0x0D, 0x20, 0xA0, 0x1680, 0x2028, 0x2029, 0x202F, 0x205F, 0x3000,
    0xFEFF] || (0x2000 ≤ c && c ≤ 0x200A)

/-- `\w`. -/
def isWord (c : ℕ) : Bool :=
  isDigit c || (0x41 ≤ c && c ≤ 0x5A) || (0x61 ≤ c && c ≤ 0x7A) || c = 0x5F

/-- The first place where `m` matches. -/
def firstMatch {α : Type*} (m : Text → Option α) : Text → Option α
  | [] => m []
  | c :: t => m (c :: t) <|> firstMatch m t

/-- `head\s*mark(inner+)\)` at the start of a text: the group. -/
def matchGroup (head mark : Text) (inner : ℕ → Bool) (t : Text) : Option Text :=
  if head <+: t then
    let rest := (t.drop head.length).dropWhile isSpace
    if mark <+: rest then
      let rest := rest.drop mark.length
      let group := rest.takeWhile inner
      if group ≠ [] ∧ (rest.dropWhile inner).head? = some 0x29 then some group else none
    else none
  else none

theorem firstMatch_append {α : Type*} {m : Text → Option α} {before t : Text}
    (h : ∀ s, s ≠ [] → s <:+ before → m (s ++ t) = none) :
    firstMatch m (before ++ t) = firstMatch m t := by
  induction before with
  | nil => rfl
  | cons c before ih =>
    have hhere := h (c :: before) (List.cons_ne_nil c before) (List.suffix_refl _)
    have hrest := ih fun s hs hsuffix => h s hs (hsuffix.trans (List.suffix_cons c before))
    show (m (c :: before ++ t) <|> firstMatch m (before ++ t)) = _
    rw [hhere, hrest]
    rfl

theorem firstMatch_of_match {α : Type*} {m : Text → Option α} {t : Text} {a : α}
    (h : m t = some a) : firstMatch m t = some a := by
  cases t with
  | nil => exact h
  | cons c t =>
    show (m (c :: t) <|> firstMatch m t) = _
    rw [h]
    rfl

/-- If a text begins with a unit that does not come again in it, it does not begin before a
    place where it stands, unless it ends there too. -/
theorem not_prefix_of_border {c : ℕ} {head before s t : Text} (hc : c ∉ head)
    (hbefore : ¬ c :: head <:+: before) (hs : s ≠ []) (hsuffix : s <:+ before)
    (ht : c :: head <+: t) : ¬ c :: head <+: s ++ t := by
  rintro hprefix
  obtain hshort | hlong := List.prefix_or_prefix_of_prefix hprefix (List.prefix_append s t)
  · exact hbefore (hshort.isInfix.trans hsuffix.isInfix)
  -- The text stands across the end of `s`, where its first unit comes again.
  obtain ⟨rest, hrest⟩ := hlong
  obtain ⟨d, s', rfl⟩ := List.exists_cons_of_ne_nil hs
  obtain ⟨rfl, htail⟩ : d = c ∧ s' ++ rest = head := List.cons_eq_cons.mp hrest
  cases rest with
  | nil =>
    rw [List.append_nil] at htail
    subst htail
    exact hbefore hsuffix.isInfix
  | cons e rest =>
    obtain ⟨after, hafter⟩ := hprefix
    obtain ⟨more, hmore⟩ := ht
    have hat : e :: rest ++ after = t := by
      rw [← htail, List.cons_append, List.append_assoc, List.cons_append] at hafter
      exact List.append_cancel_left (List.cons_eq_cons.mp hafter).2
    rw [← hmore] at hat
    have he : e = d := (List.cons_eq_cons.mp hat).1
    subst he
    refine hc ?_
    rw [← htail]
    exact List.mem_append_right s' List.mem_cons_self

/-- A pattern matches its own kind of text. -/
theorem matchGroup_eq {head mark group after : Text} {inner : ℕ → Bool} {spaces : Text}
    (hspaces : ∀ c ∈ spaces, isSpace c = true)
    (hmark : ∀ c ∈ (mark ++ group).head?, isSpace c = false) (hgroup : group ≠ [])
    (hinner : ∀ c ∈ group, inner c = true) (hclose : inner 0x29 = false) :
    matchGroup head mark inner (head ++ (spaces ++ (mark ++ (group ++ 0x29 :: after)))) =
      some group := by
  have hskip : (spaces ++ (mark ++ (group ++ 0x29 :: after))).dropWhile isSpace =
      mark ++ (group ++ 0x29 :: after) := by
    rw [List.dropWhile_append_of_pos hspaces]
    rw [← List.append_assoc]
    obtain ⟨d, rest, hd⟩ := List.exists_cons_of_ne_nil
      (List.append_ne_nil_of_right_ne_nil mark hgroup)
    rw [hd] at hmark ⊢
    exact List.dropWhile_cons_of_neg (by simp [hmark d rfl])
  have htake : (group ++ 0x29 :: after).takeWhile inner = group := by
    rw [List.takeWhile_append_of_pos hinner, List.takeWhile_cons_of_neg (by simp [hclose]),
      List.append_nil]
  have hdrop : (group ++ 0x29 :: after).dropWhile inner = 0x29 :: after := by
    rw [List.dropWhile_append_of_pos hinner, List.dropWhile_cons_of_neg (by simp [hclose])]
  unfold matchGroup
  rw [if_pos (List.prefix_append _ _), List.drop_left, hskip, if_pos (List.prefix_append _ _),
    List.drop_left]
  dsimp only
  rw [htake, hdrop, if_pos ⟨hgroup, rfl⟩]

theorem matchGroup_of_not_prefix {head mark t : Text} {inner : ℕ → Bool} (h : ¬ head <+: t) :
    matchGroup head mark inner t = none := if_neg h

end Text
