import Mathlib.Data.List.Basic
import Mathlib.Tactic.Common

/-!
# Base 64

The encoding with padding, and the forgiving decoding, which skips white space, needs no
padding, and drops the bits that do not fill a byte.

Results:
* `bytes_sextets`: bytes can be read back from their groups of six bits.
* `decode_encode`: decoding inverts encoding.
-/

namespace Base64

def alphabet : List Char :=
  "ABCDEFGHIJKLMNOPQRSTUVWXYZabcdefghijklmnopqrstuvwxyz0123456789+/".toList

/-- The character for six bits. -/
def digit (n : ℕ) : Char := alphabet.getD n 'A'

/-- The six bits of a character. -/
def value (c : Char) : Option ℕ := alphabet.idxOf? c

/-- ASCII white space. -/
def isSpace (c : Char) : Bool := c ∈ ['\t', '\n', '\x0c', '\r', ' ']

/-! ## Groups of six bits -/

/-- The groups of six bits of a text of bytes; the last one is filled with zeros. -/
def sextets : List UInt8 → List ℕ
  | [] => []
  | [a] => [a.toNat / 4, a.toNat % 4 * 16]
  | [a, b] => [a.toNat / 4, a.toNat % 4 * 16 + b.toNat / 16, b.toNat % 16 * 4]
  | a :: b :: c :: rest =>
    a.toNat / 4 :: (a.toNat % 4 * 16 + b.toNat / 16) :: (b.toNat % 16 * 4 + c.toNat / 64) ::
      c.toNat % 64 :: sextets rest

/-- The bytes that groups of six bits make; one group makes none. -/
def bytes : List ℕ → Option (List UInt8)
  | [] => some []
  | [_] => none
  | [s, t] => some [.ofNat (s * 4 + t / 16)]
  | [s, t, u] => some [.ofNat (s * 4 + t / 16), .ofNat (t % 16 * 16 + u / 4)]
  | s :: t :: u :: v :: rest => (bytes rest).map fun l =>
    .ofNat (s * 4 + t / 16) :: .ofNat (t % 16 * 16 + u / 4) :: .ofNat (u % 4 * 64 + v) :: l

theorem ofNat_eq {a : UInt8} {n : ℕ} (h : n = a.toNat) : UInt8.ofNat n = a := by
  rw [h]
  exact UInt8.ofNat_toNat

theorem bytes_sextets (l : List UInt8) : bytes (sextets l) = some l := by
  fun_induction sextets l with
  | case1 => rfl
  | case2 a =>
    have ha : a.toNat / 4 * 4 + a.toNat % 4 * 16 / 16 = a.toNat := by omega
    simp only [bytes, ofNat_eq ha]
  | case3 a b =>
    have hlt := b.toNat_lt
    have ha : a.toNat / 4 * 4 + (a.toNat % 4 * 16 + b.toNat / 16) / 16 = a.toNat := by omega
    have hb : (a.toNat % 4 * 16 + b.toNat / 16) % 16 * 16 + b.toNat % 16 * 4 / 4 = b.toNat := by
      omega
    simp only [bytes, ofNat_eq ha, ofNat_eq hb]
  | case4 a b c rest ih =>
    have hb_lt := b.toNat_lt
    have hc_lt := c.toNat_lt
    have ha : a.toNat / 4 * 4 + (a.toNat % 4 * 16 + b.toNat / 16) / 16 = a.toNat := by omega
    have hb : (a.toNat % 4 * 16 + b.toNat / 16) % 16 * 16 +
        (b.toNat % 16 * 4 + c.toNat / 64) / 4 = b.toNat := by omega
    have hc : (b.toNat % 16 * 4 + c.toNat / 64) % 4 * 64 + c.toNat % 64 = c.toNat := by omega
    simp only [bytes, ih, Option.map_some, ofNat_eq ha, ofNat_eq hb, ofNat_eq hc]

theorem sextets_lt (l : List UInt8) : ∀ n ∈ sextets l, n < 64 := by
  fun_induction sextets l with
  | case1 => exact fun _ h => nomatch h
  | case2 a =>
    have hlt := a.toNat_lt
    intro n hn
    simp only [List.mem_cons, List.not_mem_nil, or_false] at hn
    omega
  | case3 a b =>
    have ha_lt := a.toNat_lt
    have hb_lt := b.toNat_lt
    intro n hn
    simp only [List.mem_cons, List.not_mem_nil, or_false] at hn
    omega
  | case4 a b c rest ih =>
    have ha_lt := a.toNat_lt
    have hb_lt := b.toNat_lt
    have hc_lt := c.toNat_lt
    intro n hn
    simp only [List.mem_cons] at hn
    rcases hn with h | h | h | h | h
    · omega
    · omega
    · omega
    · omega
    · exact ih n h

/-! ## Texts -/

/-- How many characters of padding follow a text of `n` bytes. -/
def padding (n : ℕ) : ℕ := (3 - n % 3) % 3

def encode (l : List UInt8) : List Char :=
  (sextets l).map digit ++ List.replicate (padding l.length) '='

/-- Removes a character of padding at the front. -/
def dropPadding : List Char → List Char
  | [] => []
  | c :: rest => if c = '=' then rest else c :: rest

/-- Removes up to two characters of padding at the end. -/
def strip (cs : List Char) : List Char := (dropPadding (dropPadding cs.reverse)).reverse

def decode (cs : List Char) : Option (List UInt8) :=
  let cs := cs.filter fun c => !isSpace c
  ((if cs.length % 4 = 0 then strip cs else cs).mapM value).bind bytes

theorem length_encode (l : List UInt8) : (encode l).length % 4 = 0 := by
  unfold encode padding
  rw [List.length_append, List.length_map, List.length_replicate]
  fun_induction sextets l with
  | case1 => rfl
  | case2 a => simp only [List.length_cons, List.length_nil]
  | case3 a b => simp only [List.length_cons, List.length_nil]
  | case4 a b c rest ih =>
    simp only [List.length_cons]
    omega

theorem digit_mem (n : ℕ) : digit n ∈ alphabet := by
  unfold digit
  rw [List.getD_eq_getElem?_getD]
  by_cases hn : n < alphabet.length
  · rw [List.getElem?_eq_getElem hn]
    exact List.getElem_mem hn
  · rw [List.getElem?_eq_none (by omega)]
    decide

theorem digit_ne_padding (n : ℕ) : digit n ≠ '=' := by
  have hall : '=' ∉ alphabet := by decide +kernel
  exact ne_of_mem_of_not_mem (digit_mem n) hall

theorem isSpace_digit (n : ℕ) : isSpace (digit n) = false := by
  have hall : alphabet.all (!isSpace ·) := by decide +kernel
  simpa using List.all_eq_true.mp hall _ (digit_mem n)

theorem value_digit {n : ℕ} (hn : n < 64) : value (digit n) = some n := by
  have hall : ∀ n < 64, value (digit n) = some n := by decide +kernel
  exact hall n hn

theorem dropPadding_of_ne {cs : List Char} (h : ∀ c ∈ cs, c ≠ '=') : dropPadding cs = cs := by
  cases cs with
  | nil => rfl
  | cons c rest => exact if_neg (h c List.mem_cons_self)

theorem strip_append (ns : List ℕ) {k : ℕ} (hk : k ≤ 2) :
    strip (ns.map digit ++ List.replicate k '=') = ns.map digit := by
  have hdigits : dropPadding (ns.map digit).reverse = (ns.map digit).reverse := by
    refine dropPadding_of_ne fun c hc => ?_
    obtain ⟨n, -, rfl⟩ := List.mem_map.mp (List.mem_reverse.mp hc)
    exact digit_ne_padding n
  have hdrop : ∀ cs, dropPadding ('=' :: cs) = cs := fun cs => by rw [dropPadding, if_pos rfl]
  unfold strip
  rw [List.reverse_append, List.reverse_replicate]
  match k, hk with
  | 0, _ =>
    rw [List.replicate_zero, List.nil_append, hdigits, hdigits, List.reverse_reverse]
  | 1, _ =>
    rw [List.replicate_one, List.singleton_append, hdrop, hdigits, List.reverse_reverse]
  | 2, _ =>
    rw [List.replicate_succ, List.replicate_one, List.cons_append, List.singleton_append, hdrop,
      hdrop, List.reverse_reverse]

theorem mapM_value {ns : List ℕ} (h : ∀ n ∈ ns, n < 64) :
    (ns.map digit).mapM value = some ns := by
  induction ns with
  | nil => rfl
  | cons n ns ih =>
    rw [List.map_cons, List.mapM_cons, value_digit (h n List.mem_cons_self),
      ih fun m hm => h m (List.mem_cons_of_mem _ hm)]
    rfl

theorem decode_encode (l : List UInt8) : decode (encode l) = some l := by
  have hspaces : (encode l).filter (fun c => !isSpace c) = encode l := by
    refine List.filter_eq_self.mpr fun c hc => ?_
    rcases List.mem_append.mp hc with hc | hc
    · obtain ⟨n, -, rfl⟩ := List.mem_map.mp hc
      rw [isSpace_digit]
      rfl
    · rw [List.eq_of_mem_replicate hc]
      decide
  have hpadding : padding l.length ≤ 2 := by
    unfold padding
    omega
  unfold decode
  dsimp only
  rw [hspaces, if_pos (length_encode l)]
  unfold encode
  rw [strip_append _ hpadding, mapM_value (sextets_lt l)]
  exact bytes_sextets l

end Base64
