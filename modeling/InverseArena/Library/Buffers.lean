import InverseArena.Library.Base64
import InverseArena.Library.Numbers

/-!
# Bytes and texts

`Buffer.from` and `toString` for the encodings `utf-8` and `base64url`. Decoding never fails:
bytes that are not UTF-8 become replacement characters, and characters that are not of the
alphabet are skipped, up to the first `=`.

Results:
* `utf8_decode_encode`: ASCII survives UTF-8.
* `base64url_decode_encode`: bytes survive `base64url`.
-/

namespace Buffers

open Text (isHigh isLow)

/-! ## UTF-8 -/

/-- The bytes of a code point. -/
def utf8Bytes (c : ℕ) : List ℕ :=
  if c < 0x80 then [c]
  else if c < 0x800 then [0xC0 + c / 64, 0x80 + c % 64]
  else if c < 0x10000 then [0xE0 + c / 4096, 0x80 + c / 64 % 64, 0x80 + c % 64]
  else [0xF0 + c / 262144, 0x80 + c / 4096 % 64, 0x80 + c / 64 % 64, 0x80 + c % 64]

/-- `Buffer.from(t, "utf-8")`; a surrogate that is not in a pair is replaced. -/
def utf8Encode : Text → List ℕ
  | c :: d :: cs =>
    if isHigh c && isLow d then
      utf8Bytes (0x10000 + (c - 0xD800) * 0x400 + (d - 0xDC00)) ++ utf8Encode cs
    else (if isHigh c || isLow c then utf8Bytes 0xFFFD else utf8Bytes c) ++ utf8Encode (d :: cs)
  | [c] => if isHigh c || isLow c then utf8Bytes 0xFFFD else utf8Bytes c
  | [] => []

/-- A code point of which bytes are missing: what is known of it, how many bytes there are
    to come, and the range of the next one. -/
structure Pending where
  point : ℕ
  needed : ℕ
  lower : ℕ
  upper : ℕ
  deriving DecidableEq, Repr

/-- A byte where a code point may begin. -/
def utf8Start (b : ℕ) : Text × Option Pending :=
  if b < 0x80 then ([b], none)
  else if 0xC2 ≤ b ∧ b ≤ 0xDF then ([], some ⟨b - 0xC0, 1, 0x80, 0xBF⟩)
  else if 0xE0 ≤ b ∧ b ≤ 0xEF then
    ([], some ⟨b - 0xE0, 2, if b = 0xE0 then 0xA0 else 0x80, if b = 0xED then 0x9F else 0xBF⟩)
  else if 0xF0 ≤ b ∧ b ≤ 0xF4 then
    ([], some ⟨b - 0xF0, 3, if b = 0xF0 then 0x90 else 0x80, if b = 0xF4 then 0x8F else 0xBF⟩)
  else ([0xFFFD], none)

/-- Decodes bytes after those of an incomplete code point, if there is one. -/
def utf8DecodeFrom : Option Pending → List ℕ → Text
  | none, [] => []
  | some _, [] => [0xFFFD]
  | none, b :: bs => (utf8Start b).1 ++ utf8DecodeFrom (utf8Start b).2 bs
  | some p, b :: bs =>
    if p.lower ≤ b ∧ b ≤ p.upper then
      let point := p.point * 64 + (b - 0x80)
      if p.needed = 1 then Text.ofPoint point ++ utf8DecodeFrom none bs
      else utf8DecodeFrom (some ⟨point, p.needed - 1, 0x80, 0xBF⟩) bs
    else 0xFFFD :: (utf8Start b).1 ++ utf8DecodeFrom (utf8Start b).2 bs

/-- `buffer.toString("utf-8")`. -/
def utf8Decode (bs : List ℕ) : Text := utf8DecodeFrom none bs

theorem utf8Encode_ascii {t : Text} (h : ∀ c ∈ t, c < 0x80) : utf8Encode t = t := by
  have hplain : ∀ c < 0x80, isHigh c = false ∧ isLow c = false ∧ utf8Bytes c = [c] := by
    intro c hc
    refine ⟨?_, ?_, if_pos hc⟩
    · simp only [isHigh, Bool.and_eq_false_iff, decide_eq_false_iff_not]
      omega
    · simp only [isLow, Bool.and_eq_false_iff, decide_eq_false_iff_not]
      omega
  induction t with
  | nil => rfl
  | cons c t ih =>
    obtain ⟨hhigh, hlow, hbytes⟩ := hplain c (h c List.mem_cons_self)
    have hrest := ih fun d hd => h d (List.mem_cons_of_mem _ hd)
    cases t with
    | nil => simp [utf8Encode, hhigh, hlow, hbytes]
    | cons d t => simp [utf8Encode, hhigh, hlow, hbytes, hrest]

theorem utf8Decode_ascii {bs : List ℕ} (h : ∀ b ∈ bs, b < 0x80) : utf8Decode bs = bs := by
  unfold utf8Decode
  induction bs with
  | nil => rfl
  | cons b bs ih =>
    have hstart : utf8Start b = ([b], none) := if_pos (h b List.mem_cons_self)
    rw [utf8DecodeFrom, hstart]
    exact congrArg (b :: ·) (ih fun d hd => h d (List.mem_cons_of_mem _ hd))

/-- ASCII survives UTF-8. -/
theorem utf8_decode_encode {t : Text} (h : ∀ c ∈ t, c < 0x80) : utf8Decode (utf8Encode t) = t := by
  rw [utf8Encode_ascii h, utf8Decode_ascii h]

/-! ## base64url -/

/-- The character for six bits. -/
def urlUnit (n : ℕ) : ℕ :=
  if n = 62 then 0x2D else if n = 63 then 0x5F else (Base64.digit n).toNat

/-- The six bits of a character, of this alphabet or of the one of Base 64. -/
def sextet (c : ℕ) : Option ℕ :=
  if c = 0x2D then some 62 else if c = 0x5F then some 63 else Base64.value (Char.ofNat c)

/-- `buffer.toString("base64url")`, without padding. -/
def base64urlEncode (bs : List UInt8) : Text := (Base64.sextets bs).map urlUnit

/-- `Buffer.from(t, "base64url")`. -/
def base64urlDecode (t : Text) : List UInt8 :=
  let ns := (t.takeWhile (· ≠ 0x3D)).filterMap sextet
  (Base64.bytes (if ns.length % 4 = 1 then ns.dropLast else ns)).getD []

theorem length_sextets (bs : List UInt8) : (Base64.sextets bs).length % 4 ≠ 1 := by
  fun_induction Base64.sextets bs with
  | case1 => decide
  | case2 a => simp
  | case3 a b => simp
  | case4 a b c rest ih =>
    simp only [List.length_cons]
    omega

theorem sextet_urlUnit {n : ℕ} (hn : n < 64) : sextet (urlUnit n) = some n := by
  have hall : ∀ n < 64, sextet (urlUnit n) = some n := by decide +kernel
  exact hall n hn

theorem urlUnit_ne {n : ℕ} (hn : n < 64) : urlUnit n ≠ 0x3D := by
  have hall : ∀ n < 64, urlUnit n ≠ 0x3D := by decide +kernel
  exact hall n hn

theorem filterMap_sextet {ns : List ℕ} (h : ∀ n ∈ ns, n < 64) :
    (ns.map urlUnit).filterMap sextet = ns := by
  induction ns with
  | nil => rfl
  | cons n ns ih =>
    rw [List.map_cons, List.filterMap_cons, sextet_urlUnit (h n List.mem_cons_self)]
    exact congrArg (n :: ·) (ih fun m hm => h m (List.mem_cons_of_mem _ hm))

/-- Bytes survive `base64url`. -/
theorem base64url_decode_encode (bs : List UInt8) : base64urlDecode (base64urlEncode bs) = bs := by
  have hlt := Base64.sextets_lt bs
  have hwhole : ((Base64.sextets bs).map urlUnit).takeWhile (· ≠ 0x3D) =
      (Base64.sextets bs).map urlUnit := by
    refine List.takeWhile_eq_self_iff.mpr fun c hc => ?_
    obtain ⟨n, hn, rfl⟩ := List.mem_map.mp hc
    exact decide_eq_true (urlUnit_ne (hlt n hn))
  unfold base64urlDecode base64urlEncode
  dsimp only
  rw [hwhole, filterMap_sextet hlt, if_neg (length_sextets bs), Base64.bytes_sextets,
    Option.getD_some]

end Buffers
