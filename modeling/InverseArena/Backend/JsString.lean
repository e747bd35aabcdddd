import InverseArena.Backend.RoundTypes

/-!
# JavaScript's strings and integers

What the services do with texts: their length, white space at their ends, the integers
that they write, and the account ids among them.
-/

namespace InverseArena.Backend

/-- `s.length`, in UTF-16 code units. -/
def jsLength : List Char → ℕ
  | [] => 0
  | c :: cs => (if c.toNat < 0x10000 then 1 else 2) + jsLength cs

/-- The UTF-16 code units of a text. -/
def utf16 : List Char → List UInt16
  | [] => []
  | c :: cs =>
    let n := c.toNat
    (if n < 0x10000 then [n.toUInt16]
    else
      [(0xd800 + (n - 0x10000) / 0x400).toUInt16, (0xdc00 + (n - 0x10000) % 0x400).toUInt16]) ++
        utf16 cs

/-- `PUBLIC_KEY_REGEX`: `/^G[A-Z2-7]{55}$/`. -/
def isPublicKey : List Char → Bool
  | 'G' :: cs => cs.length = 55 && cs.all isBase32
  | _ => false

/-! ## Integers in text -/

/-- `\d`. -/
def isDigit (c : Char) : Bool := '0' ≤ c && c ≤ '9'

/-- The number that decimal digits write. -/
def decimal (digits : List Char) : ℕ :=
  digits.foldl (fun n c => 10 * n + (c.toNat - '0'.toNat)) 0

/-- The white space that JavaScript trims. -/
def isJsSpace (c : Char) : Bool :=
  c ∈ ['\t', '\n', '\x0b', '\x0c', '\r', ' ', '\u00a0', '\u1680', '\u2028', '\u2029', '\u202f',
    '\u205f', '\u3000', '\ufeff'] || ('\u2000' ≤ c && c ≤ '\u200a')

/-- `s.trim()`, on characters. -/
def trim (cs : List Char) : List Char :=
  ((cs.dropWhile isJsSpace).reverse.dropWhile isJsSpace).reverse

/-- The value of a digit in a base up to 16. -/
def digitValue (c : Char) : ℕ :=
  if isDigit c then c.toNat - '0'.toNat
  else if 'a' ≤ c && c ≤ 'f' then c.toNat - 'a'.toNat + 10
  else if 'A' ≤ c && c ≤ 'F' then c.toNat - 'A'.toNat + 10
  else 16

/-- The number that digits write in a base; there must be one. -/
def inBase (base : ℕ) (digits : List Char) : Option ℤ :=
  if digits ≠ [] ∧ digits.all fun c => digitValue c < base then
    some ((digits.foldl (fun n c => base * n + digitValue c) 0 : ℕ) : ℤ)
  else none

/-- `BigInt(s)`; `none` where it throws a `SyntaxError`. -/
def bigInt (s : String) : Option ℤ :=
  match trim s.toList with
  | [] => some 0
  | '0' :: 'x' :: cs | '0' :: 'X' :: cs => inBase 16 cs
  | '0' :: 'o' :: cs | '0' :: 'O' :: cs => inBase 8 cs
  | '0' :: 'b' :: cs | '0' :: 'B' :: cs => inBase 2 cs
  | '-' :: cs => (inBase 10 cs).map (-·)
  | '+' :: cs => inBase 10 cs
  | cs => inBase 10 cs

end InverseArena.Backend
