import InverseArena.Library.Doubles
import InverseArena.Library.Numerals
import Mathlib.Algebra.Order.Floor.Semiring
import Mathlib.Data.List.TakeWhile

/-!
# Numbers and their texts

The numbers of JavaScript but for `NaN`, and how they are written. A text is a list of UTF-16
code units, which need not be well formed.

Results:
* `rational_numeral`: a numeral is read as the natural number that it is made from.
* `ofRat_natCast`, `toText_natCast`: the natural numbers below `2 ^ 53` are doubles and have
  their numerals as texts.
-/

/-- UTF-16 code units. -/
abbrev Text := List ℕ

namespace Text

/-- The code units of a code point. -/
def ofPoint (c : ℕ) : Text :=
  if c < 0x10000 then [c] else [0xD800 + (c - 0x10000) / 0x400, 0xDC00 + (c - 0x10000) % 0x400]

def ofString (s : String) : Text := s.toList.flatMap fun c => ofPoint c.toNat

/-- The first half of a pair of surrogates. -/
def isHigh (c : ℕ) : Bool := 0xD800 ≤ c && c < 0xDC00

/-- The second half of a pair of surrogates. -/
def isLow (c : ℕ) : Bool := 0xDC00 ≤ c && c < 0xE000

/-- The decimal digits of a number. -/
def numeral (n : ℕ) : Text := (Nat.toDigits 10 n).map Char.toNat

/-- `0` to `9`. -/
def isDigit (c : ℕ) : Bool := 0x30 ≤ c && c ≤ 0x39

/-- The number that digits write. -/
def value (digits : Text) : ℕ := Nat.ofDigitChars 10 (digits.map Char.ofNat) 0

theorem value_numeral (n : ℕ) : value (numeral n) = n := by
  have hchars : (numeral n).map Char.ofNat = Nat.toDigits 10 n := by
    rw [numeral, List.map_map]
    exact (List.map_congr_left fun c _ => Char.ofNat_toNat c).trans (List.map_id _)
  rw [value, hchars, Nat.ofDigitChars_ten_toDigits]

theorem isDigit_numeral {n c : ℕ} (h : c ∈ numeral n) : isDigit c = true := by
  obtain ⟨d, hd, rfl⟩ := List.mem_map.mp h
  obtain ⟨hlow, hhigh⟩ :=
    Char.isDigit_iff_toNat.mp (Nat.isDigit_of_mem_toDigits (by decide) (by decide) hd)
  unfold isDigit
  rw [decide_eq_true (p := 0x30 ≤ d.toNat) hlow, decide_eq_true (p := d.toNat ≤ 0x39) hhigh]
  rfl

theorem numeral_ne_nil (n : ℕ) : numeral n ≠ [] :=
  fun h => Nat.toDigits_ne_nil (List.map_eq_nil_iff.mp h)

theorem toDigits_head {n : ℕ} (h : (Nat.toDigits 10 n).head? = some '0') : n = 0 := by
  induction n using Nat.strongRecOn with
  | ind n ih =>
    by_cases hn : n < 10
    · rw [Nat.toDigits_of_lt_base hn] at h
      have hall : ∀ d < 10, d.digitChar = '0' → d = 0 := by decide
      exact hall n hn (Option.some.inj h)
    · rw [Nat.toDigits_of_base_le (by decide) (by omega),
        List.head?_append_of_ne_nil _ Nat.toDigits_ne_nil] at h
      have hzero := ih (n / 10) (by omega) h
      omega

/-- Only the numeral of zero begins with a zero. -/
theorem length_numeral {n : ℕ} (h : (numeral n).head? = some 0x30) : (numeral n).length = 1 := by
  have hchar : (Nat.toDigits 10 n).head? = some '0' := by
    rw [numeral, List.head?_map, Option.map_eq_some_iff] at h
    obtain ⟨c, hc, hunit⟩ := h
    rw [hc, ← Char.ofNat_toNat c, hunit]
  rw [toDigits_head hchar]
  rfl

end Text

/-- A number that is not `NaN`; the zeros are one. -/
inductive Number where
  | finite (x : ℚ)
  | infinite (negative : Bool)
  deriving DecidableEq, Repr

namespace Number

open Doubles Text

/-- The double for a rational number. -/
def ofRat (x : ℚ) : Number :=
  let d := nearest x
  if |d| < 2 ^ 1024 then .finite d else .infinite (d < 0)

/-! ## Reading -/

/-- The sign of a number, and what follows it. -/
def sign : Text → Bool × Text
  | 0x2D :: cs => (true, cs)
  | cs => (false, cs)

/-- The digits after a point, if there is one, and what follows them. -/
def fraction : Text → Option (Text × Text)
  | 0x2E :: cs => if cs.takeWhile isDigit = [] then none
      else some (cs.takeWhile isDigit, cs.dropWhile isDigit)
  | cs => some ([], cs)

/-- The exponent that ends a number, if there is one. -/
def exponent : Text → Option ℤ
  | [] => some 0
  | e :: cs =>
    let (negative, ds) := match cs with
      | 0x2B :: ds => (false, ds)
      | cs => sign cs
    if (e = 0x65 ∨ e = 0x45) ∧ ds ≠ [] ∧ ds.all isDigit then
      some (if negative then -(value ds : ℤ) else value ds)
    else none

/-- The rational number that a text writes, by the grammar of JSON. -/
def rational (cs : Text) : Option ℚ := do
  let (negative, cs) := sign cs
  let whole := cs.takeWhile isDigit
  if whole = [] ∨ (whole.head? = some 0x30 ∧ whole.length ≠ 1) then none
  else
    let (decimals, cs) ← fraction (cs.dropWhile isDigit)
    let e ← exponent cs
    let x : ℚ := value (whole ++ decimals) * 10 ^ (e - decimals.length)
    some (if negative then -x else x)

/-! ## Writing -/

/-- The fewest digits that are read as a positive double, as a number and the place of the
    point before them. -/
def shortest (x : ℚ) : ℕ × ℤ :=
  let n := Int.log 10 x + 1
  let candidates : List (ℕ × ℕ) := (List.range' 1 17).flatMap fun k : ℕ =>
    let scaled := x * 10 ^ ((k : ℤ) - n)
    let s := halfEven scaled
    [(s.toNat, k), ((if (s : ℚ) ≤ scaled then s + 1 else s - 1).toNat, k)]
  match candidates.find? fun (s, k) => nearest (s * 10 ^ (n - (k : ℤ))) = x with
  | some (s, k) => if s = 10 ^ k then (10 ^ (k - 1), n + 1) else (s, n)
  | none => (0, n)

/-- `Number::toString`, of a positive double that is no integer below `2 ^ 53`. -/
def shortestText (x : ℚ) : Text :=
  let (s, n) := shortest x
  let digits := numeral s
  let k := digits.length
  if k ≤ n ∧ n ≤ 21 then digits ++ List.replicate (n - k).toNat 0x30
  else if 0 < n ∧ n ≤ 21 then digits.take n.toNat ++ 0x2E :: digits.drop n.toNat
  else if -6 < n ∧ n ≤ 0 then 0x30 :: 0x2E :: List.replicate (-n).toNat 0x30 ++ digits
  else
    let mantissa := if k = 1 then digits else digits.take 1 ++ 0x2E :: digits.drop 1
    mantissa ++ 0x65 :: (if n - 1 < 0 then 0x2D else 0x2B) :: numeral (n - 1).natAbs

/-- `Number::toString`, of a double that is not negative; the shortest digits of an integer
    below `2 ^ 53` are its numeral. -/
def magnitudeText (x : ℚ) : Text :=
  if x = ⌊x⌋₊ ∧ ⌊x⌋₊ < 2 ^ 53 then numeral ⌊x⌋₊ else shortestText x

/-- `String(x)`. -/
def toText : Number → Text
  | .finite x => if x < 0 then 0x2D :: magnitudeText (-x) else magnitudeText x
  | .infinite negative => ofString (if negative then "-Infinity" else "Infinity")

/-! ## Natural numbers -/

theorem takeWhile_numeral (n : ℕ) : (numeral n).takeWhile isDigit = numeral n :=
  List.takeWhile_eq_self_iff.mpr fun _ hc => isDigit_numeral hc

theorem dropWhile_numeral (n : ℕ) : (numeral n).dropWhile isDigit = [] :=
  List.dropWhile_eq_nil_iff.mpr fun _ hc => isDigit_numeral hc

theorem sign_numeral (n : ℕ) : sign (numeral n) = (false, numeral n) := by
  unfold sign
  split
  · rename_i cs hcs
    have hminus := isDigit_numeral (n := n) (hcs ▸ List.mem_cons_self)
    exact absurd hminus (by decide)
  · rfl

/-- A numeral is read as its number. -/
theorem rational_numeral (n : ℕ) : rational (numeral n) = some (n : ℚ) := by
  have hwhole : ¬ (numeral n = [] ∨ ((numeral n).head? = some 0x30 ∧ (numeral n).length ≠ 1)) :=
    not_or.mpr ⟨numeral_ne_nil n, fun h => h.2 (length_numeral h.1)⟩
  unfold rational
  rw [sign_numeral]
  dsimp only
  rw [takeWhile_numeral, dropWhile_numeral, if_neg hwhole]
  simp [fraction, exponent, value_numeral]

theorem ofRat_natCast {n : ℕ} (hn : n < 2 ^ 53) : ofRat n = .finite n := by
  have hnearest : nearest (n : ℚ) = n := by
    have hint := nearest_intCast (n := (n : ℤ)) (by rw [Nat.abs_cast]; exact_mod_cast hn)
    exact_mod_cast hint
  have hsmall : |(n : ℚ)| < 2 ^ 1024 := by
    have hlt : (n : ℚ) < 2 ^ 53 := by exact_mod_cast hn
    rw [Nat.abs_cast]
    exact hlt.trans (pow_lt_pow_right₀ one_lt_two (by decide))
  unfold ofRat
  rw [hnearest]
  exact if_pos hsmall

theorem toText_natCast {n : ℕ} (hn : n < 2 ^ 53) : toText (.finite n) = numeral n := by
  have hfloor : ⌊(n : ℚ)⌋₊ = n := Nat.floor_natCast n
  have hsign : ¬ (n : ℚ) < 0 := not_lt.mpr (Nat.cast_nonneg n)
  unfold toText magnitudeText
  dsimp only
  rw [if_neg hsign, hfloor, if_pos ⟨rfl, hn⟩]

end Number
