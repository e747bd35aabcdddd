import InverseArena.Library.Buffers
import InverseArena.Library.Json

/-!
# Well-formed texts

Texts whose surrogates all stand in pairs. They survive UTF-8, also when the bytes are decoded as
they arrive, and what JSON writes is one of them.

Results:
* `string_ofString`: a string is read back from its UTF-16 code units.
* `utf8_roundTrip`: decoding inverts encoding on well-formed texts.
* `utf8Decode_prefix`: what a part of the bytes is decoded to.
* `Sendable.wellFormed`, `Sendable.printable`: a JSON text is well formed, and has no control
  characters.
-/

namespace Text

/-- A unit that stands for itself. -/
def IsPlain (c : ℕ) : Prop := c < 0xD800 ∨ 0xE000 ≤ c ∧ c < 0x10000

/-- A code point that is not a surrogate. -/
def IsScalar (c : ℕ) : Prop := c < 0xD800 ∨ 0xE000 ≤ c ∧ c < 0x110000

/-- Every surrogate stands in a pair. -/
inductive WellFormed : Text → Prop
  | nil : WellFormed []
  | plain {c : ℕ} {t : Text} (hc : IsPlain c) (ht : WellFormed t) : WellFormed (c :: t)
  | pair {c d : ℕ} {t : Text} (hc : isHigh c = true) (hd : isLow d = true) (ht : WellFormed t) :
    WellFormed (c :: d :: t)

variable {c d : ℕ} {s t : Text}

theorem isHigh_iff : isHigh c = true ↔ 0xD800 ≤ c ∧ c < 0xDC00 := by simp [isHigh]

theorem isLow_iff : isLow c = true ↔ 0xDC00 ≤ c ∧ c < 0xE000 := by simp [isLow]

theorem IsPlain.not_surrogate (hc : IsPlain c) : isHigh c = false ∧ isLow c = false := by
  rw [← Bool.not_eq_true, ← Bool.not_eq_true, isHigh_iff, isLow_iff]
  unfold IsPlain at hc
  omega

theorem WellFormed.append (hs : WellFormed s) (ht : WellFormed t) : WellFormed (s ++ t) := by
  induction hs with
  | nil => exact ht
  | plain hc _ ih => exact .plain hc ih
  | pair hc hd _ ih => exact .pair hc hd ih

theorem WellFormed.of_plain (h : ∀ c ∈ t, IsPlain c) : WellFormed t := by
  induction t with
  | nil => exact .nil
  | cons c t ih =>
    exact .plain (h c List.mem_cons_self) (ih fun d hd => h d (List.mem_cons_of_mem _ hd))

theorem WellFormed.flatMap {α : Type*} {f : α → Text} {l : List α}
    (h : ∀ a ∈ l, WellFormed (f a)) : WellFormed (l.flatMap f) := by
  induction l with
  | nil => exact .nil
  | cons a l ih =>
    rw [List.flatMap_cons]
    exact (h a List.mem_cons_self).append (ih fun b hb => h b (List.mem_cons_of_mem _ hb))

theorem wellFormed_ofPoint (hc : IsScalar c) : WellFormed (ofPoint c) := by
  unfold ofPoint
  unfold IsScalar at hc
  split_ifs with hlt
  · exact .plain (by unfold IsPlain; omega) .nil
  · exact .pair (isHigh_iff.mpr (by omega)) (isLow_iff.mpr (by omega)) .nil

theorem isScalar_char (c : Char) : IsScalar c.toNat := by
  have hvalid := c.valid
  simp only [UInt32.isValidChar, Nat.isValidChar] at hvalid
  unfold IsScalar Char.toNat
  omega

theorem wellFormed_ofString (s : String) : WellFormed (ofString s) :=
  .flatMap fun c _ => wellFormed_ofPoint (isScalar_char c)

/-! ## Strings -/

/-- The characters of a text; a surrogate that is not in a pair is replaced. -/
def chars : Text → List Char
  | c :: d :: cs =>
    if isHigh c && isLow d then
      Char.ofNat (0x10000 + (c - 0xD800) * 0x400 + (d - 0xDC00)) :: chars cs
    else Char.ofNat (if isHigh c || isLow c then 0xFFFD else c) :: chars (d :: cs)
  | [c] => [Char.ofNat (if isHigh c || isLow c then 0xFFFD else c)]
  | [] => []

/-- The string that a text stands for. -/
def string (t : Text) : String := String.ofList (chars t)

theorem chars_plain (hc : IsPlain c) : chars (c :: t) = Char.ofNat c :: chars t := by
  obtain ⟨hhigh, hlow⟩ := hc.not_surrogate
  cases t with
  | nil => simp [chars, hhigh, hlow]
  | cons d t => simp [chars, hhigh, hlow]

theorem chars_ofPoint (c : Char) (t : Text) : chars (ofPoint c.toNat ++ t) = c :: chars t := by
  have hscalar := isScalar_char c
  unfold IsScalar at hscalar
  unfold ofPoint
  split_ifs with hlt
  · rw [List.singleton_append, chars_plain (by unfold IsPlain; omega), Char.ofNat_toNat]
  · have hpoint : 0x10000 + (0xD800 + (c.toNat - 0x10000) / 0x400 - 0xD800) * 0x400 +
        (0xDC00 + (c.toNat - 0x10000) % 0x400 - 0xDC00) = c.toNat := by omega
    have hhigh : isHigh (0xD800 + (c.toNat - 0x10000) / 0x400) = true := isHigh_iff.mpr (by omega)
    have hlow : isLow (0xDC00 + (c.toNat - 0x10000) % 0x400) = true := isLow_iff.mpr (by omega)
    simp only [List.cons_append, List.nil_append, chars, hhigh, hlow, Bool.and_self, if_pos, hpoint,
      Char.ofNat_toNat]

/-- A string is read back from its units. -/
@[simp] theorem string_ofString (s : String) : string (ofString s) = s := by
  have hchars : ∀ cs : List Char, chars (cs.flatMap fun c => ofPoint c.toNat) = cs := by
    intro cs
    induction cs with
    | nil => rfl
    | cons c cs ih => rw [List.flatMap_cons, chars_ofPoint, ih]
  rw [string, ofString, hchars, String.ofList_toList]

/-- Different strings have different units. -/
@[simp] theorem ofString_inj {s s' : String} : ofString s = ofString s' ↔ s = s' :=
  ⟨fun h => by simpa using congrArg string h, congrArg ofString⟩

theorem WellFormed.lt (h : WellFormed t) : ∀ c ∈ t, c < 0x10000 := by
  induction h with
  | nil => simp
  | plain hc _ ih =>
    intro d hd
    rcases List.mem_cons.mp hd with rfl | hd
    · unfold IsPlain at hc
      omega
    · exact ih d hd
  | pair hc hd _ ih =>
    intro e he
    rw [isHigh_iff] at hc
    rw [isLow_iff] at hd
    rcases List.mem_cons.mp he with rfl | he
    · omega
    · rcases List.mem_cons.mp he with rfl | he
      · omega
      · exact ih e he

end Text

/-! ## UTF-8 -/

namespace Buffers

open Text

variable {c d : ℕ} {t : Text}

/-- The bytes of a code point are read back, whatever follows them. -/
theorem utf8DecodeFrom_bytes (hc : IsScalar c) (rest : List ℕ) :
    utf8DecodeFrom none (utf8Bytes c ++ rest) = ofPoint c ++ utf8DecodeFrom none rest := by
  unfold IsScalar at hc
  unfold utf8Bytes
  split_ifs with h1 h2 h3
  · have hstart : utf8Start c = ([c], none) := if_pos h1
    have hpoint : ofPoint c = [c] := if_pos (by omega)
    rw [hpoint, List.singleton_append, utf8DecodeFrom, hstart]
  · have hstart : utf8Start (0xC0 + c / 64) = ([], some ⟨c / 64, 1, 0x80, 0xBF⟩) := by
      unfold utf8Start
      rw [if_neg (by omega), if_pos (by omega), Nat.add_sub_cancel_left]
    have hpoint : c / 64 * 64 + (0x80 + c % 64 - 0x80) = c := by omega
    simp only [List.cons_append, List.nil_append, utf8DecodeFrom, hstart]
    rw [if_pos (by omega), if_pos trivial, hpoint]
  · have hstart : utf8Start (0xE0 + c / 4096) = ([], some ⟨c / 4096, 2,
        if c / 4096 = 0 then 0xA0 else 0x80, if c / 4096 = 13 then 0x9F else 0xBF⟩) := by
      unfold utf8Start
      rw [if_neg (by omega), if_neg (by omega), if_pos (by omega), Nat.add_sub_cancel_left]
      congr 4 <;> exact propext (by omega)
    have hpoint : (c / 4096 * 64 + (0x80 + c / 64 % 64 - 0x80)) * 64 + (0x80 + c % 64 - 0x80) = c := by
      omega
    have hlower : (if c / 4096 = 0 then 0xA0 else 0x80) ≤ 0x80 + c / 64 % 64 := by
      split_ifs <;> omega
    have hupper : 0x80 + c / 64 % 64 ≤ (if c / 4096 = 13 then 0x9F else 0xBF) := by
      split_ifs <;> omega
    simp only [List.cons_append, List.nil_append, utf8DecodeFrom, hstart]
    rw [if_pos ⟨hlower, hupper⟩, if_neg (by decide), if_pos (by omega), if_pos trivial, hpoint]
  · have hstart : utf8Start (0xF0 + c / 262144) = ([], some ⟨c / 262144, 3,
        if c / 262144 = 0 then 0x90 else 0x80, if c / 262144 = 4 then 0x8F else 0xBF⟩) := by
      unfold utf8Start
      rw [if_neg (by omega), if_neg (by omega), if_neg (by omega), if_pos (by omega),
        Nat.add_sub_cancel_left]
      congr 4 <;> exact propext (by omega)
    have hpoint : ((c / 262144 * 64 + (0x80 + c / 4096 % 64 - 0x80)) * 64 +
        (0x80 + c / 64 % 64 - 0x80)) * 64 + (0x80 + c % 64 - 0x80) = c := by
      omega
    have hlower : (if c / 262144 = 0 then 0x90 else 0x80) ≤ 0x80 + c / 4096 % 64 := by
      split_ifs <;> omega
    have hupper : 0x80 + c / 4096 % 64 ≤ (if c / 262144 = 4 then 0x8F else 0xBF) := by
      split_ifs <;> omega
    simp only [List.cons_append, List.nil_append, utf8DecodeFrom, hstart]
    rw [if_pos ⟨hlower, hupper⟩, if_neg (by decide), if_pos (by omega), if_neg (by decide),
      if_pos (by omega), if_pos trivial, hpoint]

theorem utf8Encode_plain (hc : IsPlain c) : utf8Encode (c :: t) = utf8Bytes c ++ utf8Encode t := by
  obtain ⟨hhigh, hlow⟩ := hc.not_surrogate
  cases t with
  | nil => simp [utf8Encode, hhigh, hlow]
  | cons d t => simp [utf8Encode, hhigh, hlow]

/-- Well-formed texts survive UTF-8. -/
theorem utf8_roundTrip (h : WellFormed t) : utf8Decode (utf8Encode t) = t := by
  unfold utf8Decode
  induction h with
  | nil => rfl
  | @plain c t hc _ ih =>
    have hpoint : ofPoint c = [c] := if_pos (by unfold IsPlain at hc; omega)
    rw [utf8Encode_plain hc, utf8DecodeFrom_bytes (by unfold IsPlain at hc; unfold IsScalar; omega),
      hpoint, ih, List.singleton_append]
  | @pair c d t hc hd _ ih =>
    have hhigh := isHigh_iff.mp hc
    have hlow := isLow_iff.mp hd
    have hpoint : ofPoint (0x10000 + (c - 0xD800) * 0x400 + (d - 0xDC00)) = [c, d] := by
      have hfirst : 0xD800 + (0x10000 + (c - 0xD800) * 0x400 + (d - 0xDC00) - 0x10000) / 0x400 = c :=
        by omega
      have hsecond :
          0xDC00 + (0x10000 + (c - 0xD800) * 0x400 + (d - 0xDC00) - 0x10000) % 0x400 = d := by omega
      unfold ofPoint
      rw [if_neg (by omega), hfirst, hsecond]
    rw [utf8Encode, hc, hd, Bool.and_self, if_pos rfl,
      utf8DecodeFrom_bytes (by unfold IsScalar; omega), hpoint, ih]
    rfl

/-- Bytes are decoded from the left: what comes later adds to what has been read, up to the code
    point that is incomplete. -/
theorem utf8DecodeFrom_append (p : Option Pending) (bs : List ℕ) : ∃ read q,
    (∀ cs, utf8DecodeFrom p (bs ++ cs) = read ++ utf8DecodeFrom q cs) ∧
      utf8DecodeFrom p bs = read ++ utf8DecodeFrom q [] := by
  induction bs generalizing p with
  | nil => exact ⟨[], p, fun cs => rfl, rfl⟩
  | cons b bs ih =>
    have hcont : ∀ (r : Text) (p' : Option Pending),
        (∀ cs, utf8DecodeFrom p (b :: cs) = r ++ utf8DecodeFrom p' cs) → ∃ read q,
          (∀ cs, utf8DecodeFrom p (b :: bs ++ cs) = read ++ utf8DecodeFrom q cs) ∧
            utf8DecodeFrom p (b :: bs) = read ++ utf8DecodeFrom q [] := by
      intro r p' hstep
      obtain ⟨read, q, happend, hend⟩ := ih p'
      refine ⟨r ++ read, q, fun cs => ?_, ?_⟩
      · rw [List.cons_append, hstep, happend, List.append_assoc]
      · rw [hstep, hend, List.append_assoc]
    cases p with
    | none => exact hcont _ _ fun cs => rfl
    | some p =>
      by_cases hin : p.lower ≤ b ∧ b ≤ p.upper
      · by_cases hlast : p.needed = 1
        · exact hcont _ _ fun cs => by rw [utf8DecodeFrom, if_pos hin, if_pos hlast]
        · refine hcont [] (some ⟨p.point * 64 + (b - 0x80), p.needed - 1, 0x80, 0xBF⟩) fun cs => ?_
          rw [utf8DecodeFrom, if_pos hin, if_neg hlast, List.nil_append]
      · refine hcont (0xFFFD :: (utf8Start b).1) (utf8Start b).2 fun cs => ?_
        rw [utf8DecodeFrom, if_neg hin]

/-- The units that a part of the bytes gives are the first ones, up to a replacement of the code
    point in which the part ends. -/
theorem utf8Decode_prefix {bs cs : List ℕ} (h : bs <+: cs) :
    ∃ read, read <+: utf8Decode cs ∧
      (utf8Decode bs = read ∨ utf8Decode bs = read ++ [0xFFFD]) := by
  obtain ⟨more, rfl⟩ := h
  obtain ⟨read, q, happend, hend⟩ := utf8DecodeFrom_append none bs
  refine ⟨read, ⟨utf8DecodeFrom q more, (happend more).symm⟩, ?_⟩
  cases q with
  | none => exact .inl (hend.trans (List.append_nil _))
  | some q => exact .inr hend

end Buffers

/-! ## What JSON writes -/

namespace Json

open Text

/-- A token whose text stands for it: a number is a double, and a string has UTF-16 code
    units. -/
def Token.Sound (t : Token) : Prop :=
  (∀ x, t = .number x → ∃ q, x = .finite q ∧ Number.IsDouble q) ∧
    ∀ s, t = .string s → ∀ c ∈ s, c < 0x10000

variable {c : ℕ} {s : Text} {t : Token}

theorem hexDigit_bounds {n : ℕ} (hn : n < 16) : 0x30 ≤ hexDigit n ∧ hexDigit n < 0x67 := by
  unfold hexDigit
  split_ifs <;> omega

theorem unicodeEscape_bounds (hc : c < 0x10000) :
    ∀ d ∈ unicodeEscape c, 0x20 ≤ d ∧ d < 0x80 := by
  intro d hd
  have h1 := hexDigit_bounds (n := c / 4096) (by omega)
  have h2 := hexDigit_bounds (n := c / 256 % 16) (by omega)
  have h3 := hexDigit_bounds (n := c / 16 % 16) (by omega)
  have h4 := hexDigit_bounds (n := c % 16) (by omega)
  simp only [unicodeEscape, List.mem_cons, List.not_mem_nil, or_false] at hd
  omega

theorem quoteUnit_bounds (hc : c < 0x10000) (hplain : IsPlain c) :
    ∀ d ∈ quoteUnit c, 0x20 ≤ d ∧ IsPlain d := by
  intro d hd
  unfold quoteUnit at hd
  have hshort : ∀ e, d ∈ [0x5C, e] → 0x20 ≤ e → e < 0x80 → 0x20 ≤ d ∧ IsPlain d := by
    intro e he hlow hhigh
    simp only [List.mem_cons, List.not_mem_nil, or_false] at he
    unfold IsPlain
    omega
  split_ifs at hd with h1 h2 h3 h4 h5 h6 h7 h8
  iterate 7 exact hshort _ hd (by decide) (by decide)
  · have hbounds := unicodeEscape_bounds hc d hd
    unfold IsPlain
    omega
  · obtain rfl := List.mem_singleton.mp hd
    exact ⟨by omega, hplain⟩

theorem quoteUnits_bounds (hs : ∀ c ∈ s, c < 0x10000) :
    WellFormed (quoteUnits s) ∧ ∀ d ∈ quoteUnits s, 0x20 ≤ d := by
  have hescape : ∀ {c : ℕ} {t : Text}, c < 0x10000 → WellFormed t ∧ (∀ d ∈ t, 0x20 ≤ d) →
      WellFormed (unicodeEscape c ++ t) ∧ ∀ d ∈ unicodeEscape c ++ t, 0x20 ≤ d := by
    rintro c t hc ⟨hwell, hlow⟩
    have hbounds := unicodeEscape_bounds hc
    refine ⟨.append (.of_plain fun d hd => .inl ?_) hwell, fun d hd => ?_⟩
    · exact (hbounds d hd).2.trans (by decide)
    · exact (List.mem_append.mp hd).elim (fun h => (hbounds d h).1) (hlow d)
  have hunit : ∀ {c : ℕ} {t : Text}, c < 0x10000 → isHigh c = false → isLow c = false →
      WellFormed t ∧ (∀ d ∈ t, 0x20 ≤ d) →
        WellFormed (quoteUnit c ++ t) ∧ ∀ d ∈ quoteUnit c ++ t, 0x20 ≤ d := by
    rintro c t hc hhigh hlow ⟨hwell, hge⟩
    have hplain : IsPlain c := by
      rw [← Bool.not_eq_true, isHigh_iff] at hhigh
      rw [← Bool.not_eq_true, isLow_iff] at hlow
      unfold IsPlain
      omega
    have hbounds := quoteUnit_bounds hc hplain
    refine ⟨.append (.of_plain fun d hd => (hbounds d hd).2) hwell, fun d hd => ?_⟩
    exact (List.mem_append.mp hd).elim (fun h => (hbounds d h).1) (hge d)
  have hnil : WellFormed [] ∧ ∀ d ∈ ([] : Text), 0x20 ≤ d := ⟨.nil, by simp⟩
  induction s using quoteUnits.induct with
  | case1 c d cs hpair ih =>
    obtain ⟨hwell, hlow⟩ := ih fun e he => hs e (by simp [he])
    rw [quoteUnits, if_pos hpair]
    rw [Bool.and_eq_true] at hpair
    have hc := isHigh_iff.mp hpair.1
    have hd := isLow_iff.mp hpair.2
    refine ⟨.pair hpair.1 hpair.2 hwell, fun e he => ?_⟩
    rcases List.mem_cons.mp he with rfl | he
    · omega
    · rcases List.mem_cons.mp he with rfl | he
      · omega
      · exact hlow e he
  | case2 c d cs hpair hlone ih =>
    rw [quoteUnits, if_neg hpair, if_pos hlone]
    exact hescape (hs c List.mem_cons_self) (ih fun e he => hs e (List.mem_cons_of_mem _ he))
  | case3 c d cs hpair hlone ih =>
    rw [quoteUnits, if_neg hpair, if_neg hlone]
    rw [Bool.not_eq_true, Bool.or_eq_false_iff] at hlone
    exact hunit (hs c List.mem_cons_self) hlone.1 hlone.2
      (ih fun e he => hs e (List.mem_cons_of_mem _ he))
  | case4 c hlone =>
    rw [quoteUnits, if_pos hlone]
    simpa using hescape (hs c List.mem_cons_self) hnil
  | case5 c hlone =>
    rw [quoteUnits, if_neg hlone]
    rw [Bool.not_eq_true, Bool.or_eq_false_iff] at hlone
    simpa using hunit (hs c List.mem_cons_self) hlone.1 hlone.2 hnil
  | case6 => exact hnil

theorem toText_ascii {q : ℚ} (hq : Number.IsDouble q) :
    ∀ c ∈ Number.toText (.finite q), 0x20 ≤ c ∧ c < 0x80 := by
  have hnumeric : ∀ c, Number.IsNumeric c → 0x20 ≤ c ∧ c < 0x80 := by
    rintro c (h | rfl | rfl | rfl | rfl)
    · simp only [isDigit, Bool.and_eq_true, decide_eq_true_eq] at h
      omega
    all_goals decide
  intro c hc
  obtain ⟨cs, r, hreads, ⟨htext, -⟩ | ⟨htext, -⟩⟩ := Number.reads_toText hq
  · exact hnumeric c (hreads.numeric c (htext ▸ hc))
  · rw [htext] at hc
    rcases List.mem_cons.mp hc with rfl | hc
    · decide
    · exact hnumeric c (hreads.numeric c hc)

/-- How a token is written. -/
theorem spell_bounds (h : t.Sound) : WellFormed (spell t) ∧ ∀ c ∈ spell t, 0x20 ≤ c := by
  obtain ⟨hnumber, hstring⟩ := h
  have hascii : ∀ {cs : Text}, (∀ c ∈ cs, 0x20 ≤ c ∧ c < 0x80) →
      WellFormed cs ∧ ∀ c ∈ cs, 0x20 ≤ c := fun h =>
    ⟨.of_plain fun c hc => .inl ((h c hc).2.trans (by decide)), fun c hc => (h c hc).1⟩
  cases t with
  | number x =>
    obtain ⟨q, rfl, hq⟩ := hnumber x rfl
    exact hascii (toText_ascii hq)
  | string s =>
    obtain ⟨hwell, hlow⟩ := quoteUnits_bounds (hstring s rfl)
    have hquote : IsPlain 0x22 := .inl (by decide)
    refine ⟨.plain hquote (hwell.append (.plain hquote .nil)), fun c hc => ?_⟩
    rcases List.mem_cons.mp hc with rfl | hc
    · decide
    · rcases List.mem_append.mp hc with hc | hc
      · exact hlow c hc
      · obtain rfl := List.mem_singleton.mp hc
        decide
  | bool b => cases b <;> exact hascii (by decide)
  | _ => exact hascii (by decide)

/-! ## Values that are written as they are -/

/-- A value whose text stands for it, and is well formed. -/
def Sendable (j : Json) : Prop := ∀ t ∈ tokens j, t.Sound

theorem Sendable.writable {j : Json} (h : j.Sendable) : j.Writable := fun x hx => (h _ hx).1 x rfl

/-- The text of such a value is well formed. -/
theorem Sendable.wellFormed {j : Json} (h : j.Sendable) : WellFormed (stringify j) :=
  .flatMap fun t ht => (spell_bounds (h t ht)).1

/-- It has no line breaks, and no other control characters. -/
theorem Sendable.printable {j : Json} (h : j.Sendable) : ∀ c ∈ stringify j, 0x20 ≤ c := by
  intro c hc
  obtain ⟨t, ht, hct⟩ := List.mem_flatMap.mp hc
  exact (spell_bounds (h t ht)).2 c hct

theorem Sendable.parse {j : Json} (h : j.Sendable) : Json.parse (stringify j) = some j :=
  parse_stringify h.writable.readable

theorem mem_elementTokens {js : List Json} (h : t ∈ elementTokens js) :
    t = .closeArray ∨ t = .comma ∨ ∃ j ∈ js, t ∈ tokens j := by
  induction js with
  | nil => exact .inl (List.mem_singleton.mp h)
  | cons j js ih =>
    rw [elementTokens, List.cons_append, List.mem_cons, List.mem_append] at h
    rcases h with rfl | h | h
    · exact .inr (.inl rfl)
    · exact .inr (.inr ⟨j, List.mem_cons_self, h⟩)
    · rcases ih h with h | h | ⟨k, hk, h⟩
      · exact .inl h
      · exact .inr (.inl h)
      · exact .inr (.inr ⟨k, List.mem_cons_of_mem _ hk, h⟩)

theorem mem_fieldTokens {fields : List (Text × Json)} (h : t ∈ fieldTokens fields) :
    t = .closeObject ∨ t = .comma ∨ t = .colon ∨
      ∃ f ∈ fields, t = .string f.1 ∨ t ∈ tokens f.2 := by
  induction fields with
  | nil => exact .inl (List.mem_singleton.mp h)
  | cons f fields ih =>
    rw [fieldTokens, List.cons_append, List.cons_append, List.cons_append, List.mem_cons,
      List.mem_cons, List.mem_cons, List.mem_append] at h
    rcases h with rfl | rfl | rfl | h | h
    · exact .inr (.inl rfl)
    · exact .inr (.inr (.inr ⟨f, List.mem_cons_self, .inl rfl⟩))
    · exact .inr (.inr (.inl rfl))
    · exact .inr (.inr (.inr ⟨f, List.mem_cons_self, .inr h⟩))
    · rcases ih h with h | h | h | ⟨g, hg, h⟩
      · exact .inl h
      · exact .inr (.inl h)
      · exact .inr (.inr (.inl h))
      · exact .inr (.inr (.inr ⟨g, List.mem_cons_of_mem _ hg, h⟩))

theorem sendable_null : Sendable .null := fun t ht => by
  obtain rfl := List.mem_singleton.mp ht
  exact ⟨(fun _ h => nomatch h), fun _ h => nomatch h⟩

theorem sendable_number {q : ℚ} (hq : Number.IsDouble q) :
    Sendable (.number (.finite q)) := fun t ht => by
  obtain rfl := List.mem_singleton.mp ht
  refine ⟨fun x hx => ?_, fun _ h => nomatch h⟩
  obtain rfl := Token.number.inj hx
  exact ⟨q, rfl, hq⟩

theorem sound_string (hs : ∀ c ∈ s, c < 0x10000) : (Token.string s).Sound := by
  refine ⟨(fun _ h => nomatch h), fun u hu => ?_⟩
  obtain rfl := Token.string.inj hu
  exact hs

theorem sendable_string (hs : ∀ c ∈ s, c < 0x10000) : Sendable (.string s) := fun t ht => by
  obtain rfl := List.mem_singleton.mp ht
  exact sound_string hs

/-- The marks between values. -/
theorem sound_mark
    (ht : t ∈ [.openArray, .closeArray, .openObject, .closeObject, .comma, .colon]) : t.Sound := by
  constructor
  · rintro x rfl
    simp at ht
  · rintro s rfl
    simp at ht

theorem sendable_array {js : List Json} (h : ∀ j ∈ js, j.Sendable) : Sendable (.array js) := by
  intro t ht
  cases js with
  | nil =>
    rw [tokens] at ht
    exact sound_mark (by simp at ht ⊢; tauto)
  | cons j js =>
    rw [tokens, List.cons_append, List.mem_cons, List.mem_append] at ht
    rcases ht with rfl | ht | ht
    · exact sound_mark (by simp)
    · exact h j List.mem_cons_self t ht
    · rcases mem_elementTokens ht with rfl | rfl | ⟨k, hk, ht⟩
      · exact sound_mark (by simp)
      · exact sound_mark (by simp)
      · exact h k (List.mem_cons_of_mem _ hk) t ht

theorem sendable_object {fields : List (Text × Json)}
    (h : ∀ f ∈ fields, (∀ c ∈ f.1, c < 0x10000) ∧ f.2.Sendable) : Sendable (.object fields) := by
  intro t ht
  cases fields with
  | nil =>
    rw [tokens] at ht
    exact sound_mark (by simp at ht ⊢; tauto)
  | cons f fields =>
    obtain ⟨key, j⟩ := f
    rw [tokens, List.cons_append, List.cons_append, List.cons_append, List.mem_cons,
      List.mem_cons, List.mem_cons, List.mem_append] at ht
    rcases ht with rfl | rfl | rfl | ht | ht
    · exact sound_mark (by simp)
    · exact sound_string (h _ List.mem_cons_self).1
    · exact sound_mark (by simp)
    · exact (h _ List.mem_cons_self).2 t ht
    · rcases mem_fieldTokens ht with rfl | rfl | rfl | ⟨g, hg, rfl | ht⟩
      · exact sound_mark (by simp)
      · exact sound_mark (by simp)
      · exact sound_mark (by simp)
      · exact sound_string (h g (List.mem_cons_of_mem _ hg)).1
      · exact (h g (List.mem_cons_of_mem _ hg)).2 t ht

end Json
