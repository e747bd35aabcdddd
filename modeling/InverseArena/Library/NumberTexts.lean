import InverseArena.Library.Numbers

/-!
# Doubles are read back from their texts

`Number::toString` writes the fewest digits that are read as the double, in one of four
forms, and seventeen digits are always enough.

Results:
* `rational_decimal`: what a text of digits, fraction and exponent is read as.
* `shortest_spec`: the digits that are written are read as the double.
* `reads_toText`: the text of a double is read as the double.
-/

namespace Number

open Doubles Text

/-- A number that is a double. -/
def IsDouble (x : ℚ) : Prop := nearest x = x ∧ |x| < 2 ^ 1024

/-! ## Digits -/

section Digits

variable {l m : Text} {s k : ℕ}

theorem value_append (l m : Text) : value (l ++ m) = value l * 10 ^ m.length + value m := by
  rw [value, List.map_append, Numerals.ofDigitChars_append, List.length_map]
  rfl

@[simp] theorem value_nil : value [] = 0 := rfl

@[simp] theorem value_zeros (n : ℕ) : value (List.replicate n 0x30) = 0 := by
  rw [value, List.map_replicate]
  exact Nat.ofDigitChars_replicate_zero

/-- The numeral of a number has as many digits as the number. -/
theorem length_numeral_eq (hk : 1 ≤ k) (hlow : 10 ^ (k - 1) ≤ s) (hhigh : s < 10 ^ k) :
    (numeral s).length = k := by
  have hle : (Nat.toDigits 10 s).length ≤ k :=
    (Nat.length_toDigits_le_iff (by decide) (by omega)).mpr hhigh
  have hgt : ¬ (Nat.toDigits 10 s).length < k := by
    intro hlt
    have hpos : 0 < (Nat.toDigits 10 s).length := Nat.length_toDigits_pos
    have hsmall := (Nat.length_toDigits_le_iff (b := 10) (n := s) (k := k - 1) (by decide)
      (by omega)).mp (by omega)
    omega
  rw [numeral, List.length_map]
  omega

theorem head_numeral (hs : 0 < s) : (numeral s).head? ≠ some 0x30 := by
  intro hzero
  have hval := length_numeral hzero
  rw [numeral, List.head?_map, Option.map_eq_some_iff] at hzero
  obtain ⟨c, hc, hunit⟩ := hzero
  rw [← Char.ofNat_toNat c, hunit] at hc
  exact hs.ne' (toDigits_head hc)

end Digits

/-! ## Reading a decimal -/

section Reading

variable {whole digits rest ending : Text} {e : ℤ}

/-- What comes after digits does not begin with one. -/
def Stops (rest : Text) : Prop := ∀ c ∈ rest.head?, isDigit c = false

theorem takeWhile_digits (hd : ∀ c ∈ digits, isDigit c = true) (hrest : Stops rest) :
    (digits ++ rest).takeWhile isDigit = digits ∧
      (digits ++ rest).dropWhile isDigit = rest := by
  rw [List.takeWhile_append_of_pos hd, List.dropWhile_append_of_pos hd]
  cases rest with
  | nil => simp
  | cons c rest =>
    have hc := hrest c rfl
    simp [hc]

theorem sign_digits (hd : ∀ c ∈ whole, isDigit c = true) (hne : whole ≠ []) :
    sign (whole ++ rest) = (false, whole ++ rest) := by
  obtain ⟨c, cs, rfl⟩ := List.exists_cons_of_ne_nil hne
  have hc := hd c List.mem_cons_self
  unfold sign
  split
  · rename_i heq
    cases heq
    exact absurd hc (by decide)
  · rfl

/-- Digits that do not begin with a needless zero, a fraction and an exponent. -/
theorem rational_decimal (hd : ∀ c ∈ whole, isDigit c = true) (hne : whole ≠ [])
    (hlead : whole.head? = some 0x30 → whole.length = 1) (hrest : Stops rest)
    (hfraction : fraction rest = some (digits, ending)) (hexponent : exponent ending = some e) :
    rational (whole ++ rest) =
      some ((value (whole ++ digits) : ℚ) * (10 : ℚ) ^ (e - digits.length)) := by
  obtain ⟨htake, hdrop⟩ := takeWhile_digits hd hrest
  have hwhole : ¬ (whole = [] ∨ (whole.head? = some 0x30 ∧ whole.length ≠ 1)) :=
    not_or.mpr ⟨hne, fun h => h.2 (hlead h.1)⟩
  unfold rational
  rw [sign_digits hd hne]
  dsimp only
  rw [htake, hdrop, if_neg hwhole, hfraction]
  simp [hexponent]

theorem fraction_point (hd : ∀ c ∈ digits, isDigit c = true) (hne : digits ≠ [])
    (hending : Stops ending) : fraction (0x2E :: (digits ++ ending)) = some (digits, ending) := by
  obtain ⟨htake, hdrop⟩ := takeWhile_digits hd hending
  simp [fraction, htake, hdrop, hne]

/-- An exponent with its sign. -/
theorem exponent_signed (m : ℕ) (negative : Bool) :
    exponent (0x65 :: (if negative then 0x2D else 0x2B) :: numeral m) =
      some (if negative then -(m : ℤ) else m) := by
  have hall : (numeral m).all isDigit = true :=
    List.all_eq_true.mpr fun c hc => isDigit_numeral hc
  cases negative with
  | true => simp [exponent, sign, hall, numeral_ne_nil, value_numeral]
  | false => simp [exponent, hall, numeral_ne_nil, value_numeral]

end Reading

/-! ## The fewest digits -/

section Shortest

variable {x y : ℚ} {k s : ℕ}

/-- The two integers next to a number with `k` digits before the point have as many, but for
    the power of ten. -/
theorem candidate_digits (hlow : 10 ^ (k - 1) ≤ y) (hhigh : y < 10 ^ k)
    (hs : s = (halfEven y).toNat ∨
      s = (if (halfEven y : ℚ) ≤ y then halfEven y + 1 else halfEven y - 1).toNat) :
    10 ^ (k - 1) ≤ s ∧ s ≤ 10 ^ k := by
  have hfloor : ((10 ^ (k - 1) : ℕ) : ℤ) ≤ ⌊y⌋ := Int.le_floor.mpr (by exact_mod_cast hlow)
  have hceil : ⌊y⌋ < ((10 ^ k : ℕ) : ℤ) := Int.floor_lt.mpr (by exact_mod_cast hhigh)
  have hnext : s = ⌊y⌋.toNat ∨ s = (⌊y⌋ + 1).toNat := by
    rcases hs with rfl | rfl
    · rcases halfEven_eq_or y with h | h <;> simp [h]
    · split_ifs with hle
      · have hround := Int.le_floor.mpr hle
        rcases halfEven_eq_or y with h | h
        · simp [h]
        · omega
      · have hround : ⌊y⌋ < halfEven y := Int.floor_lt.mpr (not_le.mp hle)
        rcases halfEven_eq_or y with h | h
        · omega
        · simp [h]
  generalize 10 ^ (k - 1) = low at hfloor ⊢
  generalize 10 ^ k = high at hceil ⊢
  omega

theorem zpow_log_bounds (hpos : 0 < x) :
    10 ^ Int.log 10 x ≤ x ∧ x < 10 ^ (Int.log 10 x + 1) := by
  have hlow : ((10 : ℕ) : ℚ) ^ Int.log 10 x ≤ x := Int.zpow_log_le_self (by norm_num) hpos
  have hhigh : x < ((10 : ℕ) : ℚ) ^ (Int.log 10 x + 1) :=
    Int.lt_zpow_succ_log_self (by norm_num) x
  exact ⟨by exact_mod_cast hlow, by exact_mod_cast hhigh⟩

/-- With the point moved, a number has `k` digits before it. -/
theorem scaled_bounds (hpos : 0 < x) (hk : 1 ≤ k) :
    10 ^ (k - 1) ≤ x * 10 ^ ((k : ℤ) - (Int.log 10 x + 1)) ∧
      x * 10 ^ ((k : ℤ) - (Int.log 10 x + 1)) < 10 ^ k := by
  obtain ⟨hlow, hhigh⟩ := zpow_log_bounds hpos
  have hunit : (0 : ℚ) < 10 ^ ((k : ℤ) - (Int.log 10 x + 1)) := zpow_pos (by norm_num) _
  have hsplit : ∀ a : ℤ, (10 : ℚ) ^ a * 10 ^ ((k : ℤ) - (Int.log 10 x + 1)) =
      10 ^ (a + ((k : ℤ) - (Int.log 10 x + 1))) := fun a => (zpow_add₀ (by norm_num) _ _).symm
  constructor
  · have hmul := mul_le_mul_of_nonneg_right hlow hunit.le
    rw [hsplit, show Int.log 10 x + ((k : ℤ) - (Int.log 10 x + 1)) = ((k - 1 : ℕ) : ℤ) by omega,
      zpow_natCast] at hmul
    exact hmul
  · have hmul := mul_lt_mul_of_pos_right hhigh hunit
    rw [hsplit, show Int.log 10 x + 1 + ((k : ℤ) - (Int.log 10 x + 1)) = (k : ℤ) by omega,
      zpow_natCast] at hmul
    exact hmul

/-- Seventeen digits are read as the double. -/
theorem nearest_seventeen (hx : nearest x = x) (hpos : 0 < x) :
    nearest (((halfEven (x * 10 ^ ((17 : ℤ) - (Int.log 10 x + 1)))).toNat : ℚ) *
      10 ^ (Int.log 10 x + 1 - 17)) = x := by
  obtain ⟨hlow, -⟩ := scaled_bounds (k := 17) hpos (by norm_num)
  have hround := abs_halfEven_sub_le (x * 10 ^ ((17 : ℤ) - (Int.log 10 x + 1)))
  have hinv : (10 : ℚ) ^ ((17 : ℤ) - (Int.log 10 x + 1)) * 10 ^ (Int.log 10 x + 1 - 17) = 1 := by
    rw [← zpow_add₀ (by norm_num)]
    simp
  have hunit : (0 : ℚ) < 10 ^ (Int.log 10 x + 1 - 17) := zpow_pos (by norm_num) _
  generalize (10 : ℚ) ^ (Int.log 10 x + 1 - 17) = u at hinv hunit ⊢
  generalize hv : (10 : ℚ) ^ ((17 : ℤ) - (Int.log 10 x + 1)) = v at hinv hround ⊢
  have hlow' : 10 ^ 16 ≤ x * v := by
    rw [← hv]
    exact_mod_cast hlow
  have hnat : (((halfEven (x * v)).toNat : ℕ) : ℚ) = halfEven (x * v) := by
    have hnonneg : 0 ≤ halfEven (x * v) := by
      have hfloor : (0 : ℤ) ≤ ⌊x * v⌋ := Int.floor_nonneg.mpr (by linarith)
      exact hfloor.trans (floor_le_halfEven _)
    exact_mod_cast Int.toNat_of_nonneg hnonneg
  rw [hnat]
  refine nearest_of_near hx hpos ?_
  have hdist : (halfEven (x * v) : ℚ) * u - x = (halfEven (x * v) - x * v) * u := by
    rw [sub_mul, mul_assoc, hinv, mul_one]
  rw [hdist, abs_mul, abs_of_pos hunit]
  have hsmall := mul_le_mul_of_nonneg_right hround hunit.le
  have hbig : 10 ^ 16 * u ≤ x := by
    have hmul := mul_le_mul_of_nonneg_right hlow' hunit.le
    rwa [mul_assoc, hinv, mul_one] at hmul
  rw [lt_div_iff₀ (by norm_num)]
  linarith

/-- The digits that are written have no zero in front and are read as the double. -/
theorem shortest_spec (hx : nearest x = x) (hpos : 0 < x) : 0 < (shortest x).1 ∧
    nearest ((shortest x).1 * 10 ^ ((shortest x).2 - ((numeral (shortest x).1).length : ℤ))) =
      x := by
  unfold shortest
  dsimp only
  split
  · rename_i s k hfind
    have hmem := List.mem_of_find?_eq_some hfind
    have hread := List.find?_some hfind
    dsimp only at hread
    rw [decide_eq_true_eq] at hread
    simp only [List.mem_flatMap, List.mem_range'_1, List.mem_cons, List.not_mem_nil, or_false,
      Prod.mk.injEq] at hmem
    obtain ⟨k', ⟨hk, -⟩, hs⟩ := hmem
    obtain rfl : k = k' := by rcases hs with ⟨-, h⟩ | ⟨-, h⟩ <;> exact h
    obtain ⟨hscaled, hscaled'⟩ := scaled_bounds hpos hk
    obtain ⟨hlow, hhigh⟩ := candidate_digits hscaled hscaled'
      (hs.imp (fun h => h.1) fun h => h.1)
    have hten : 0 < 10 ^ (k - 1) := by positivity
    split_ifs with hpow
    · -- the power of ten with one digit more
      have hlength : (numeral (10 ^ (k - 1))).length = k :=
        length_numeral_eq hk (le_refl _) (Nat.pow_lt_pow_right (by norm_num) (by omega))
      refine ⟨hten, ?_⟩
      have hten0 : (10 : ℚ) ≠ 0 := by norm_num
      have hsame : ((10 ^ (k - 1) : ℕ) : ℚ) * 10 ^ (Int.log 10 x + 1 + 1 - (k : ℤ)) =
          ((10 ^ k : ℕ) : ℚ) * 10 ^ (Int.log 10 x + 1 - (k : ℤ)) := by
        push_cast
        rw [← zpow_natCast, ← zpow_natCast, ← zpow_add₀ hten0, ← zpow_add₀ hten0]
        congr 1
        omega
      rw [hlength, hsame, ← hpow, hread]
    · have hlength : (numeral s).length = k := length_numeral_eq hk hlow (by omega)
      refine ⟨by omega, ?_⟩
      rw [hlength, hread]
  · rename_i hfind
    -- seventeen digits would have been found
    rw [List.find?_eq_none] at hfind
    have hmem := hfind ((halfEven (x * 10 ^ (((17 : ℕ) : ℤ) - (Int.log 10 x + 1)))).toNat, 17) ?_
    · exact absurd (nearest_seventeen hx hpos) (by simpa using hmem)
    · rw [List.mem_flatMap]
      exact ⟨17, by simp, by simp⟩

end Shortest

/-! ## The four forms -/

section Forms

variable {x q : ℚ} {whole digits rest ending cs : Text} {s : ℕ} {e n : ℤ}

/-- A character of a number. -/
def IsNumeric (c : ℕ) : Prop := isDigit c = true ∨ c = 0x2B ∨ c = 0x2D ∨ c = 0x2E ∨ c = 0x65

/-- A text without a sign that is read as `q`. -/
structure Reads (cs : Text) (q : ℚ) : Prop where
  value : rational cs = some q
  head : ∃ c rest, cs = c :: rest ∧ isDigit c = true
  numeric : ∀ c ∈ cs, IsNumeric c

theorem Reads.of_parts (hd : ∀ c ∈ whole, isDigit c = true) (hne : whole ≠ [])
    (hlead : whole.head? = some 0x30 → whole.length = 1) (hrest : Stops rest)
    (hfraction : fraction rest = some (digits, ending)) (hexponent : exponent ending = some e)
    (hnumeric : ∀ c ∈ rest, IsNumeric c)
    (hq : (Text.value (whole ++ digits) : ℚ) * 10 ^ (e - digits.length) = q) :
    Reads (whole ++ rest) q where
  value := hq ▸ rational_decimal hd hne hlead hrest hfraction hexponent
  head := by
    obtain ⟨c, cs, rfl⟩ := List.exists_cons_of_ne_nil hne
    exact ⟨c, cs ++ rest, rfl, hd c List.mem_cons_self⟩
  numeric c hc := by
    rcases List.mem_append.mp hc with h | h
    · exact .inl (hd c h)
    · exact hnumeric c h

theorem stops_nil : Stops [] := fun _ h => nomatch h

theorem stops_cons {c : ℕ} (hc : isDigit c = false) : Stops (c :: rest) := by
  rintro d ⟨⟩
  exact hc

/-- An integer. -/
theorem reads_whole (hd : ∀ c ∈ whole, isDigit c = true) (hne : whole ≠ [])
    (hlead : whole.head? = some 0x30 → whole.length = 1)
    (hq : (Text.value whole : ℚ) = q) : Reads whole q := by
  rw [← List.append_nil whole]
  refine .of_parts hd hne hlead stops_nil rfl rfl (fun _ h => nomatch h) ?_
  simpa using hq

/-- Digits on both sides of a point. -/
theorem reads_point (hd : ∀ c ∈ whole, isDigit c = true) (hne : whole ≠ [])
    (hlead : whole.head? = some 0x30 → whole.length = 1)
    (hd' : ∀ c ∈ digits, isDigit c = true) (hne' : digits ≠ [])
    (hq : (Text.value (whole ++ digits) : ℚ) * 10 ^ (-(digits.length : ℤ)) = q) :
    Reads (whole ++ 0x2E :: digits) q := by
  have hfraction := fraction_point hd' hne' stops_nil
  rw [List.append_nil] at hfraction
  refine .of_parts hd hne hlead (stops_cons rfl) hfraction rfl ?_ (by rwa [zero_sub])
  rintro c (_ | ⟨_, hc⟩)
  · exact .inr (.inr (.inr (.inl rfl)))
  · exact .inl (hd' c hc)

/-- The exponent of a number. -/
def exponentText (e : ℤ) : Text := 0x65 :: (if e < 0 then 0x2D else 0x2B) :: numeral e.natAbs

theorem exponent_exponentText (e : ℤ) : exponent (exponentText e) = some e := by
  have h := exponent_signed e.natAbs (e < 0)
  simp only [decide_eq_true_eq] at h
  rw [exponentText, h]
  congr 1
  split_ifs <;> omega

theorem numeric_exponentText (e : ℤ) : ∀ c ∈ exponentText e, IsNumeric c := by
  unfold exponentText
  rintro c (_ | ⟨_, _ | ⟨_, hc⟩⟩)
  · exact .inr (.inr (.inr (.inr rfl)))
  · split_ifs
    · exact .inr (.inr (.inl rfl))
    · exact .inr (.inl rfl)
  · exact .inl (isDigit_numeral hc)

theorem reads_exponent (hd : ∀ c ∈ whole, isDigit c = true) (hne : whole ≠ [])
    (hlead : whole.head? = some 0x30 → whole.length = 1)
    (hq : (Text.value whole : ℚ) * 10 ^ e = q) : Reads (whole ++ exponentText e) q := by
  have hfraction : fraction (exponentText e) = some ([], exponentText e) := rfl
  refine .of_parts hd hne hlead (stops_cons rfl) hfraction (exponent_exponentText e)
    (numeric_exponentText e) ?_
  simpa using hq

theorem reads_point_exponent (hd : ∀ c ∈ whole, isDigit c = true) (hne : whole ≠ [])
    (hlead : whole.head? = some 0x30 → whole.length = 1)
    (hd' : ∀ c ∈ digits, isDigit c = true) (hne' : digits ≠ [])
    (hq : (Text.value (whole ++ digits) : ℚ) * 10 ^ (e - digits.length) = q) :
    Reads (whole ++ 0x2E :: (digits ++ exponentText e)) q := by
  refine .of_parts hd hne hlead (stops_cons rfl) (fraction_point hd' hne' (stops_cons rfl))
    (exponent_exponentText e) ?_ hq
  rintro c (_ | ⟨_, hc⟩)
  · exact .inr (.inr (.inr (.inl rfl)))
  · rcases List.mem_append.mp hc with h | h
    · exact .inl (hd' c h)
    · exact numeric_exponentText e c h

theorem split_digits {m : ℕ} (hm : 0 < m) (hlt : m < digits.length) :
    digits.take m ≠ [] ∧ digits.drop m ≠ [] ∧ (digits.take m).head? = digits.head? := by
  refine ⟨fun h => ?_, fun h => ?_, ?_⟩
  · have hlen := congrArg List.length h
    rw [List.length_take, List.length_nil] at hlen
    omega
  · have hlen := congrArg List.length h
    rw [List.length_drop, List.length_nil] at hlen
    omega
  · rw [List.head?_take, if_neg (by omega)]

/-- The digits of the shortest text are read with the point in its place. -/
theorem reads_shortestText (hs : 0 < (shortest x).1) : Reads (shortestText x)
    ((shortest x).1 * 10 ^ ((shortest x).2 - ((numeral (shortest x).1).length : ℤ))) := by
  unfold shortestText
  generalize shortest x = r at hs ⊢
  obtain ⟨s, n⟩ := r
  dsimp only at hs ⊢
  have hexponent : 0x65 :: (if n - 1 < 0 then 0x2D else 0x2B) :: numeral (n - 1).natAbs =
      exponentText (n - 1) := rfl
  rw [hexponent]
  have hd : ∀ c ∈ numeral s, isDigit c = true := fun c hc => isDigit_numeral hc
  have hvalue := value_numeral s
  have hne := numeral_ne_nil s
  have hhead := head_numeral hs
  generalize numeral s = digits at hd hvalue hne hhead ⊢
  have hpos : 0 < digits.length := List.length_pos_iff.mpr hne
  have hten : (10 : ℚ) ≠ 0 := by norm_num
  split_ifs with hwhole hpoint hzero hone
  · obtain ⟨m, rfl⟩ : ∃ m : ℕ, n = digits.length + m :=
      (Int.le.dest hwhole.1).imp fun _ h => h.symm
    rw [show ((digits.length : ℤ) + m - digits.length).toNat = m by omega]
    refine reads_whole (fun c hc => ?_) (by simp [hne]) (fun h0 => ?_) ?_
    · rcases List.mem_append.mp hc with h | h
      · exact hd c h
      · rw [List.eq_of_mem_replicate h]
        rfl
    · rw [List.head?_append_of_ne_nil _ hne] at h0
      exact absurd h0 hhead
    · rw [value_append, hvalue, value_zeros, List.length_replicate,
        show (digits.length : ℤ) + m - digits.length = m by omega, zpow_natCast]
      push_cast
      rw [add_zero]
  · obtain ⟨m, rfl⟩ : ∃ m : ℕ, n = m := Int.eq_ofNat_of_zero_le (by omega)
    have hpos' : 0 < m := by omega
    have hlt : m < digits.length := by omega
    rw [Int.toNat_natCast]
    obtain ⟨htake, hdrop, hfirst⟩ := split_digits hpos' hlt
    refine reads_point (fun c hc => hd c (List.mem_of_mem_take hc)) htake
      (fun h0 => absurd (hfirst ▸ h0) hhead) (fun c hc => hd c (List.mem_of_mem_drop hc)) hdrop ?_
    rw [List.take_append_drop, hvalue, List.length_drop]
    congr 2
    omega
  · have hzero0 : ∀ c ∈ [0x30], isDigit c = true := by decide
    have hall : ∀ c ∈ List.replicate (-n).toNat 0x30 ++ digits, isDigit c = true := by
      intro c hc
      rcases List.mem_append.mp hc with h | h
      · rw [List.eq_of_mem_replicate h]
        rfl
      · exact hd c h
    have hzeros : Text.value ([0x30] ++ (List.replicate (-n).toNat 0x30 ++ digits)) = s := by
      have hlead : Text.value [0x30] = 0 := rfl
      rw [value_append, value_append, value_zeros, hvalue, hlead]
      simp
    have hlength : -(((List.replicate (-n).toNat 0x30 ++ digits).length : ℕ) : ℤ) =
        n - digits.length := by
      rw [List.length_append, List.length_replicate]
      omega
    have hq : (Text.value ([0x30] ++ (List.replicate (-n).toNat 0x30 ++ digits)) : ℚ) *
        10 ^ (-(((List.replicate (-n).toNat 0x30 ++ digits).length : ℕ) : ℤ)) =
          s * 10 ^ (n - (digits.length : ℤ)) := by rw [hzeros, hlength]
    exact reads_point hzero0 (by simp) (fun _ => rfl) hall (by simp [hne]) hq
  · refine reads_exponent hd hne (fun h0 => absurd h0 hhead) ?_
    rw [hvalue, hone]
    rfl
  · rw [List.append_assoc, List.cons_append]
    obtain ⟨htake, hdrop, hfirst⟩ :=
      split_digits one_pos (show 1 < digits.length by omega)
    refine reads_point_exponent (fun c hc => hd c (List.mem_of_mem_take hc)) htake
      (fun h0 => absurd (hfirst ▸ h0) hhead) (fun c hc => hd c (List.mem_of_mem_drop hc)) hdrop ?_
    rw [List.take_append_drop, hvalue, List.length_drop]
    congr 2
    omega

end Forms

/-! ## Doubles -/

section Doubles

variable {x q : ℚ} {cs : Text}

theorem reads_numeral (n : ℕ) : Reads (numeral n) n :=
  reads_whole (fun _ hc => isDigit_numeral hc) (numeral_ne_nil n) length_numeral
    (by rw [value_numeral])

/-- A minus sign before a number. -/
theorem Reads.neg (h : Reads cs q) : rational (0x2D :: cs) = some (-q) := by
  obtain ⟨c, rest, rfl, hc⟩ := h.head
  have hvalue := h.value
  have hsign : sign (c :: rest) = (false, c :: rest) := by
    unfold sign
    split
    · rename_i heq
      cases heq
      exact absurd hc (by decide)
    · rfl
  unfold rational at hvalue ⊢
  rw [hsign] at hvalue
  rw [show sign (0x2D :: c :: rest) = (true, c :: rest) from rfl]
  dsimp only at hvalue ⊢
  by_cases hlead : (c :: rest).takeWhile isDigit = [] ∨
      (((c :: rest).takeWhile isDigit).head? = some 0x30 ∧
        ((c :: rest).takeWhile isDigit).length ≠ 1)
  · rw [if_pos hlead] at hvalue
    cases hvalue
  · rw [if_neg hlead] at hvalue ⊢
    simp only [Option.bind_eq_bind, Option.bind_eq_some_iff, Bool.false_eq_true, if_false,
      Option.some.injEq] at hvalue
    obtain ⟨r, hfraction, e, hexponent, rfl⟩ := hvalue
    simp [hfraction, hexponent]

theorem reads_magnitudeText (hx : nearest x = x) (h0 : 0 ≤ x) :
    ∃ q, Reads (magnitudeText x) q ∧ nearest q = x := by
  unfold magnitudeText
  split_ifs with hint
  · refine ⟨⌊x⌋₊, reads_numeral _, ?_⟩
    rw [← hint.1, hx]
  · have hpos : 0 < x := by
      refine lt_of_le_of_ne h0 fun hzero => hint ?_
      rw [← hzero]
      norm_num
    obtain ⟨hs, hread⟩ := shortest_spec hx hpos
    exact ⟨_, reads_shortestText hs, hread⟩

/-- The text of a double: a sign before what is read as its magnitude. -/
theorem reads_toText (hx : IsDouble x) : ∃ cs q, Reads cs q ∧
    ((toText (.finite x) = cs ∧ nearest q = x) ∨
      (toText (.finite x) = 0x2D :: cs ∧ nearest (-q) = x)) := by
  unfold toText
  dsimp only
  by_cases hneg : x < 0
  · obtain ⟨q, hreads, hq⟩ := reads_magnitudeText (x := -x)
      (by rw [nearest_neg, hx.1]) (by linarith)
    rw [if_pos hneg]
    exact ⟨_, q, hreads, .inr ⟨rfl, by rw [nearest_neg, hq, neg_neg]⟩⟩
  · obtain ⟨q, hreads, hq⟩ := reads_magnitudeText hx.1 (not_lt.mp hneg)
    rw [if_neg hneg]
    exact ⟨_, q, hreads, .inl ⟨rfl, hq⟩⟩

/-- A text that is rounded to a double stands for it. -/
theorem ofRat_of_nearest (hx : IsDouble x) (hq : nearest q = x) : ofRat q = .finite x := by
  unfold ofRat
  rw [hq]
  exact if_pos hx.2

theorem isDouble_natCast {n : ℕ} (hn : n < 2 ^ 53) : IsDouble n := by
  have h := ofRat_natCast hn
  unfold ofRat at h
  dsimp only at h
  split_ifs at h with hsmall
  rw [finite.injEq] at h
  rw [h] at hsmall
  exact ⟨h, hsmall⟩

end Doubles

end Number
