import InverseArena.Library.NumberTexts

/-!
# JSON

`JSON.parse` and `JSON.stringify`, on UTF-16 code units. A text is cut into tokens by one
machine, and values are put together from them by another one, which keeps the arrays and
objects that are open on a stack; both read their input once.

Results:
* `lex_stringify`: the tokens of a value are read back from its text.
* `build_tokens`: a value is put together from its tokens.
* `parse_stringify`: parsing inverts writing, if every number in the value is read back.
* `readBack_double`: doubles are.
-/

inductive Json where
  | null
  | bool (b : Bool)
  | number (x : Number)
  | string (s : Text)
  | array (elements : List Json)
  | object (fields : List (Text × Json))

namespace Json

open Text (isHigh isLow)

/-! ## Tokens -/

inductive Token where
  | openArray
  | closeArray
  | openObject
  | closeObject
  | comma
  | colon
  | null
  | bool (b : Bool)
  | number (x : Number)
  | string (s : Text)
  deriving DecidableEq

/-- Tab, line feed, carriage return and space. -/
def isSpace (c : ℕ) : Bool := c = 0x09 || c = 0x0A || c = 0x0D || c = 0x20

/-- `a` to `z`. -/
def isLetter (c : ℕ) : Bool := 0x61 ≤ c && c ≤ 0x7A

/-- What numbers are made of: digits, signs, a point, `e` and `E`. -/
def isNumeric (c : ℕ) : Bool :=
  Text.isDigit c || c = 0x2B || c = 0x2D || c = 0x2E || c = 0x65 || c = 0x45

/-- Brackets, braces, commas and colons. -/
def punctuation : ℕ → Option Token
  | 0x5B => some .openArray
  | 0x5D => some .closeArray
  | 0x7B => some .openObject
  | 0x7D => some .closeObject
  | 0x2C => some .comma
  | 0x3A => some .colon
  | _ => none

/-- The token that a word makes. -/
def wordToken (cs : Text) : Option Token :=
  if cs = Text.ofString "null" then some .null
  else if cs = Text.ofString "true" then some (.bool true)
  else if cs = Text.ofString "false" then some (.bool false)
  else none

/-- The number that its characters make. -/
def numberToken (cs : Text) : Option Token := (Number.rational cs).map (.number <| .ofRat ·)

/-- What a character stands for after a backslash, `u` apart. -/
def unescape : ℕ → Option ℕ
  | 0x22 => some 0x22
  | 0x5C => some 0x5C
  | 0x2F => some 0x2F
  | 0x62 => some 0x08
  | 0x66 => some 0x0C
  | 0x6E => some 0x0A
  | 0x72 => some 0x0D
  | 0x74 => some 0x09
  | _ => none

/-- The value of a hexadecimal digit. -/
def hexValue (c : ℕ) : Option ℕ :=
  if Text.isDigit c then some (c - 0x30)
  else if 0x61 ≤ c ∧ c ≤ 0x66 then some (c - 0x61 + 10)
  else if 0x41 ≤ c ∧ c ≤ 0x46 then some (c - 0x41 + 10)
  else none

/-! ## From texts to tokens -/

/-- Where the reading of a token stands. -/
inductive Mode where
  | between
  | string (s : Text)
  | escape (s : Text)
  | unicode (s : Text) (digits : List ℕ)
  | number (cs : Text)
  | word (cs : Text)
  deriving DecidableEq

/-- The tokens read, and what is being read. -/
structure Lexer where
  tokens : List Token
  mode : Mode
  deriving DecidableEq

namespace Lexer

/-- The character `c` after the tokens `ts`. -/
def start (ts : List Token) (c : ℕ) : Option Lexer :=
  if isSpace c then some ⟨ts, .between⟩
  else if c = 0x22 then some ⟨ts, .string []⟩
  else if Text.isDigit c || c = 0x2D then some ⟨ts, .number [c]⟩
  else if isLetter c then some ⟨ts, .word [c]⟩
  else (punctuation c).map fun t => ⟨ts ++ [t], .between⟩

def step (l : Lexer) (c : ℕ) : Option Lexer :=
  match l.mode with
  | .between => start l.tokens c
  | .string s =>
    if c = 0x22 then some ⟨l.tokens ++ [.string s], .between⟩
    else if c = 0x5C then some ⟨l.tokens, .escape s⟩
    else if c < 0x20 then none
    else some ⟨l.tokens, .string (s ++ [c])⟩
  | .escape s =>
    if c = 0x75 then some ⟨l.tokens, .unicode s []⟩
    else (unescape c).map fun d => ⟨l.tokens, .string (s ++ [d])⟩
  | .unicode s digits => (hexValue c).map fun d =>
    if digits.length = 3 then
      ⟨l.tokens, .string (s ++ [(digits ++ [d]).foldl (fun n d => 16 * n + d) 0])⟩
    else ⟨l.tokens, .unicode s (digits ++ [d])⟩
  | .number cs =>
    if isNumeric c then some ⟨l.tokens, .number (cs ++ [c])⟩
    else (numberToken cs).bind fun t => start (l.tokens ++ [t]) c
  | .word cs =>
    if isLetter c then some ⟨l.tokens, .word (cs ++ [c])⟩
    else (wordToken cs).bind fun t => start (l.tokens ++ [t]) c

/-- The tokens at the end of the text. -/
def finish (l : Lexer) : Option (List Token) :=
  match l.mode with
  | .between => some l.tokens
  | .number cs => (numberToken cs).map fun t => l.tokens ++ [t]
  | .word cs => (wordToken cs).map fun t => l.tokens ++ [t]
  | .string _ | .escape _ | .unicode .. => none

/-- The tokens that the rest of a text ends with. -/
def run (l : Lexer) (cs : Text) : Option (List Token) := (cs.foldlM step l).bind finish

end Lexer

/-- The tokens of a text; `none` where there is an error. -/
def lex (cs : Text) : Option (List Token) := Lexer.run ⟨[], .between⟩ cs

/-! ## From tokens to values -/

/-- What is open around a value. -/
inductive Frame where
  | array (elements : List Json)
  | object (fields : List (Text × Json)) (key : Text)

/-- What has been read of a value, and what may follow. -/
inductive Builder where
  /-- A value. -/
  | value (stack : List Frame)
  /-- The first element of an array, or its end. -/
  | firstElement (stack : List Frame)
  /-- The first key of an object, or its end. -/
  | firstKey (stack : List Frame)
  | key (fields : List (Text × Json)) (stack : List Frame)
  | colon (fields : List (Text × Json)) (key : Text) (stack : List Frame)
  /-- A comma, or the end of the array. -/
  | afterElement (elements : List Json) (stack : List Frame)
  /-- A comma, or the end of the object. -/
  | afterField (fields : List (Text × Json)) (stack : List Frame)
  | done (j : Json)

namespace Builder

/-- A value has been read. -/
def complete : List Frame → Json → Builder
  | [], j => .done j
  | .array elements :: stack, j => .afterElement (elements ++ [j]) stack
  | .object fields k :: stack, j => .afterField (fields ++ [(k, j)]) stack

/-- A token where a value is expected. -/
def startValue (stack : List Frame) : Token → Option Builder
  | .null => some (complete stack .null)
  | .bool b => some (complete stack (.bool b))
  | .number x => some (complete stack (.number x))
  | .string s => some (complete stack (.string s))
  | .openArray => some (.firstElement stack)
  | .openObject => some (.firstKey stack)
  | .closeArray | .closeObject | .comma | .colon => none

def step : Builder → Token → Option Builder
  | .value stack, t => startValue stack t
  | .firstElement stack, .closeArray => some (complete stack (.array []))
  | .firstElement stack, t => startValue (.array [] :: stack) t
  | .firstKey stack, .closeObject => some (complete stack (.object []))
  | .firstKey stack, .string k => some (.colon [] k stack)
  | .key fields stack, .string k => some (.colon fields k stack)
  | .colon fields k stack, .colon => some (.value (.object fields k :: stack))
  | .afterElement elements stack, .comma => some (.value (.array elements :: stack))
  | .afterElement elements stack, .closeArray => some (complete stack (.array elements))
  | .afterField fields stack, .comma => some (.key fields stack)
  | .afterField fields stack, .closeObject => some (complete stack (.object fields))
  | _, _ => none

end Builder

/-- The value that tokens make. -/
def build (ts : List Token) : Option Json :=
  match ts.foldlM Builder.step (.value []) with
  | some (.done j) => some j
  | _ => none

/-- `JSON.parse(cs)`; `none` where it throws a `SyntaxError`. -/
def parse (cs : Text) : Option Json := (lex cs).bind build

/-- The field of an object under a key: the last one that was read. -/
def field? (fields : List (Text × Json)) (key : Text) : Option Json :=
  (fields.reverse.find? (·.1 = key)).map (·.2)

/-! ## Writing -/

/-- The character of a hexadecimal digit. -/
def hexDigit (n : ℕ) : ℕ := if n < 10 then n + 0x30 else n - 10 + 0x61

/-- A character as `\u` and four digits. -/
def unicodeEscape (c : ℕ) : Text :=
  [0x5C, 0x75, hexDigit (c / 4096), hexDigit (c / 256 % 16), hexDigit (c / 16 % 16),
    hexDigit (c % 16)]

/-- A character other than a surrogate, in a string. -/
def quoteUnit (c : ℕ) : Text :=
  if c = 0x22 then [0x5C, 0x22]
  else if c = 0x5C then [0x5C, 0x5C]
  else if c = 0x08 then [0x5C, 0x62]
  else if c = 0x0C then [0x5C, 0x66]
  else if c = 0x0A then [0x5C, 0x6E]
  else if c = 0x0D then [0x5C, 0x72]
  else if c = 0x09 then [0x5C, 0x74]
  else if c < 0x20 then unicodeEscape c
  else [c]

/-- The characters of a string; surrogates are escaped unless they make a pair. -/
def quoteUnits : Text → Text
  | c :: d :: cs =>
    if isHigh c && isLow d then c :: d :: quoteUnits cs
    else if isHigh c || isLow c then unicodeEscape c ++ quoteUnits (d :: cs)
    else quoteUnit c ++ quoteUnits (d :: cs)
  | [c] => if isHigh c || isLow c then unicodeEscape c else quoteUnit c
  | [] => []

def spell : Token → Text
  | .openArray => [0x5B]
  | .closeArray => [0x5D]
  | .openObject => [0x7B]
  | .closeObject => [0x7D]
  | .comma => [0x2C]
  | .colon => [0x3A]
  | .null => Text.ofString "null"
  | .bool true => Text.ofString "true"
  | .bool false => Text.ofString "false"
  | .number (.finite x) => Number.toText (.finite x)
  | .number (.infinite _) => Text.ofString "null"
  | .string s => 0x22 :: quoteUnits s ++ [0x22]

mutual

def tokens : Json → List Token
  | .null => [.null]
  | .bool b => [.bool b]
  | .number x => [.number x]
  | .string s => [.string s]
  | .array [] => [.openArray, .closeArray]
  | .array (j :: js) => .openArray :: tokens j ++ elementTokens js
  | .object [] => [.openObject, .closeObject]
  | .object ((key, j) :: fields) =>
    .openObject :: .string key :: .colon :: tokens j ++ fieldTokens fields

/-- The elements after the first one, and the end of the array. -/
def elementTokens : List Json → List Token
  | [] => [.closeArray]
  | j :: js => .comma :: tokens j ++ elementTokens js

/-- The fields after the first one, and the end of the object. -/
def fieldTokens : List (Text × Json) → List Token
  | [] => [.closeObject]
  | (key, j) :: fields => .comma :: .string key :: .colon :: tokens j ++ fieldTokens fields

end

/-- `JSON.stringify(j)`. -/
def stringify (j : Json) : Text := (tokens j).flatMap spell

/-! ## Tokens are read back -/

variable {ts : List Token} {s cs rest : Text} {c : ℕ} {t : Token}

namespace Lexer

theorem run_cons (l : Lexer) (c : ℕ) (cs : Text) :
    run l (c :: cs) = (step l c).bind fun l' => run l' cs := by
  unfold run
  rw [List.foldlM_cons]
  exact Option.bind_assoc _ _ _

theorem run_step {l m : Lexer} (h : step l c = some m) : run l (c :: cs) = run m cs := by
  rw [run_cons, h, Option.bind_some]

/-- A character that stands for itself in a string. -/
theorem run_plain (hc : 0x20 ≤ c) (hquote : c ≠ 0x22) (hslash : c ≠ 0x5C) :
    run ⟨ts, .string s⟩ (c :: rest) = run ⟨ts, .string (s ++ [c])⟩ rest := by
  apply run_step
  unfold step
  dsimp only
  rw [if_neg hquote, if_neg hslash, if_neg (by omega)]

theorem hexValue_hexDigit {n : ℕ} (hn : n < 16) : hexValue (hexDigit n) = some n := by
  have hall : ∀ n < 16, hexValue (hexDigit n) = some n := by decide
  exact hall n hn

theorem run_hexDigit {n : ℕ} (hn : n < 16) {digits : List ℕ} (hmore : digits.length ≠ 3) :
    run ⟨ts, .unicode s digits⟩ (hexDigit n :: rest) =
      run ⟨ts, .unicode s (digits ++ [n])⟩ rest := by
  apply run_step
  simp only [step, hexValue_hexDigit hn, Option.map_some, if_neg hmore]

theorem run_unicodeEscape (hc : c < 0x10000) :
    run ⟨ts, .string s⟩ (unicodeEscape c ++ rest) = run ⟨ts, .string (s ++ [c])⟩ rest := by
  unfold unicodeEscape
  rw [List.cons_append, run_step (m := ⟨ts, .escape s⟩) rfl]
  rw [List.cons_append, run_step (m := ⟨ts, .unicode s []⟩) rfl]
  rw [List.cons_append, run_hexDigit (by omega) (by simp)]
  rw [List.cons_append, run_hexDigit (by omega) (by simp)]
  rw [List.cons_append, run_hexDigit (by omega) (by simp)]
  apply run_step
  have hvalue : ((([c / 4096, c / 256 % 16, c / 16 % 16] ++ [c % 16]).foldl
      (fun n d => 16 * n + d) 0 : ℕ)) = c := by
    simp only [List.cons_append, List.nil_append, List.foldl_cons, List.foldl_nil]
    omega
  simp only [step, hexValue_hexDigit (Nat.mod_lt c (by decide)), Option.map_some, List.nil_append]
  rw [if_pos (by rfl)]
  simpa using hvalue

theorem run_quoteUnit : run ⟨ts, .string s⟩ (quoteUnit c ++ rest) =
    run ⟨ts, .string (s ++ [c])⟩ rest := by
  have hescape : ∀ d e, step ⟨ts, .string s⟩ 0x5C = some ⟨ts, .escape s⟩ →
      unescape e = some d → e ≠ 0x75 →
        run ⟨ts, .string s⟩ ([0x5C, e] ++ rest) = run ⟨ts, .string (s ++ [d])⟩ rest := by
    intro d e hslash he hne
    rw [List.cons_append, run_step hslash, List.singleton_append]
    apply run_step
    simp only [step, if_neg hne, he, Option.map_some]
  have hslash : step ⟨ts, .string s⟩ 0x5C = some ⟨ts, .escape s⟩ := rfl
  unfold quoteUnit
  split_ifs with h1 h2 h3 h4 h5 h6 h7 h8
  · rw [hescape 0x22 0x22 hslash rfl (by decide), h1]
  · rw [hescape 0x5C 0x5C hslash rfl (by decide), h2]
  · rw [hescape 0x08 0x62 hslash rfl (by decide), h3]
  · rw [hescape 0x0C 0x66 hslash rfl (by decide), h4]
  · rw [hescape 0x0A 0x6E hslash rfl (by decide), h5]
  · rw [hescape 0x0D 0x72 hslash rfl (by decide), h6]
  · rw [hescape 0x09 0x74 hslash rfl (by decide), h7]
  · exact run_unicodeEscape (by omega)
  · exact run_plain (by omega) h1 h2

theorem run_quote : run ⟨ts, .string s⟩ (0x22 :: rest) =
    run ⟨ts ++ [.string s], .between⟩ rest :=
  run_step rfl

/-- A string is read back, up to the quote that closes it. -/
theorem run_quoteUnits : run ⟨ts, .string s⟩ (quoteUnits cs ++ 0x22 :: rest) =
    run ⟨ts ++ [.string (s ++ cs)], .between⟩ rest := by
  induction cs using quoteUnits.induct generalizing s with
  | case1 c d cs hpair ih =>
    rw [Bool.and_eq_true] at hpair
    obtain ⟨hhigh, hlow⟩ := hpair
    simp only [isHigh, isLow, Bool.and_eq_true, decide_eq_true_eq] at hhigh hlow
    rw [quoteUnits, if_pos (by simp [isHigh, isLow, hhigh, hlow]), List.cons_append,
      run_plain (by omega) (by omega) (by omega), List.cons_append,
      run_plain (by omega) (by omega) (by omega), ih]
    simp only [List.append_assoc, List.cons_append, List.nil_append]
  | case2 c d cs hpair hlone ih =>
    have hc : c < 0x10000 := by
      simp only [isHigh, isLow, Bool.or_eq_true, Bool.and_eq_true, decide_eq_true_eq] at hlone
      omega
    rw [quoteUnits, if_neg hpair, if_pos hlone, List.append_assoc, run_unicodeEscape hc, ih,
      List.append_assoc, List.singleton_append]
  | case3 c d cs hpair hlone ih =>
    rw [quoteUnits, if_neg hpair, if_neg hlone, List.append_assoc, run_quoteUnit, ih,
      List.append_assoc, List.singleton_append]
  | case4 c hlone =>
    have hc : c < 0x10000 := by
      simp only [isHigh, isLow, Bool.or_eq_true, Bool.and_eq_true, decide_eq_true_eq] at hlone
      omega
    rw [quoteUnits, if_pos hlone, run_unicodeEscape hc, run_quote]
  | case5 c hlone => rw [quoteUnits, if_neg hlone, run_quoteUnit, run_quote]
  | case6 =>
    rw [quoteUnits, List.nil_append, List.append_nil]
    exact run_quote

/-- What may follow a number or a word: a character of neither, or nothing. -/
def Ends (rest : Text) : Prop := ∀ c ∈ rest.head?, isNumeric c = false ∧ isLetter c = false

theorem Ends.nil : Ends [] := fun _ h => nomatch h

theorem Ends.cons (hc : isNumeric c = false ∧ isLetter c = false) (rest : Text) :
    Ends (c :: rest) := by
  intro d hd
  rw [← Option.mem_some.mp hd]
  exact hc

theorem run_numerics (h : ∀ c ∈ cs, isNumeric c = true) :
    run ⟨ts, .number s⟩ (cs ++ rest) = run ⟨ts, .number (s ++ cs)⟩ rest := by
  induction cs generalizing s with
  | nil => rw [List.append_nil, List.nil_append]
  | cons c cs ih =>
    have hstep : step ⟨ts, .number s⟩ c = some ⟨ts, .number (s ++ [c])⟩ :=
      if_pos (h c List.mem_cons_self)
    rw [List.cons_append, run_step hstep, ih fun d hd => h d (List.mem_cons_of_mem _ hd),
      List.append_assoc, List.singleton_append]

theorem run_letters (h : ∀ c ∈ cs, isLetter c = true) :
    run ⟨ts, .word s⟩ (cs ++ rest) = run ⟨ts, .word (s ++ cs)⟩ rest := by
  induction cs generalizing s with
  | nil => rw [List.append_nil, List.nil_append]
  | cons c cs ih =>
    have hstep : step ⟨ts, .word s⟩ c = some ⟨ts, .word (s ++ [c])⟩ :=
      if_pos (h c List.mem_cons_self)
    rw [List.cons_append, run_step hstep, ih fun d hd => h d (List.mem_cons_of_mem _ hd),
      List.append_assoc, List.singleton_append]

theorem run_numberToken (ht : numberToken cs = some t) (hrest : Ends rest) :
    run ⟨ts, .number cs⟩ rest = run ⟨ts ++ [t], .between⟩ rest := by
  cases rest with
  | nil => simp [run, finish, ht]
  | cons c rest =>
    have hc := (hrest c rfl).1
    rw [run_cons, run_cons]
    simp [step, hc, ht]

theorem run_wordToken (ht : wordToken cs = some t) (hrest : Ends rest) :
    run ⟨ts, .word cs⟩ rest = run ⟨ts ++ [t], .between⟩ rest := by
  cases rest with
  | nil => simp [run, finish, ht]
  | cons c rest =>
    have hc := (hrest c rfl).2
    rw [run_cons, run_cons]
    simp [step, hc, ht]

end Lexer

open Lexer

/-- The text of a number is read as the number. -/
def ReadBack (x : Number) : Prop :=
  ∃ c cs, spell (.number x) = c :: cs ∧ (Text.isDigit c || c = 0x2D) = true ∧
    (∀ d ∈ cs, isNumeric d = true) ∧ numberToken (c :: cs) = some (.number x)

/-- A token is read back, unless it is a number whose text is not. -/
def Token.Readable : Token → Prop
  | .number x => ReadBack x
  | _ => True

theorem run_word {cs : Text} (hc : isLetter c = true) (hcs : ∀ d ∈ cs, isLetter d = true)
    (ht : wordToken (c :: cs) = some t) (hrest : Ends rest) :
    run ⟨ts, .between⟩ (c :: cs ++ rest) = run ⟨ts ++ [t], .between⟩ rest := by
  have hstart : Lexer.step ⟨ts, .between⟩ c = some ⟨ts, .word [c]⟩ := by
    simp only [isLetter, Bool.and_eq_true, decide_eq_true_eq] at hc
    have hspace : isSpace c = false := by
      simp only [isSpace, Bool.or_eq_false_iff, decide_eq_false_iff_not]
      omega
    have hdigit : (Text.isDigit c || decide (c = 0x2D)) = false := by
      simp only [Text.isDigit, Bool.or_eq_false_iff, Bool.and_eq_false_iff,
        decide_eq_false_iff_not]
      omega
    have hletter : isLetter c = true := by simp [isLetter, hc]
    simp [Lexer.step, start, hspace, hdigit, hletter, show c ≠ 0x22 by omega]
  rw [List.cons_append, run_step hstart, run_letters hcs, List.singleton_append,
    run_wordToken ht hrest]

/-- The tokens whose texts do not show where they end. -/
def Token.isWord : Token → Bool
  | .null | .bool _ | .number _ => true
  | _ => false

/-- A token is read back from its text, followed by what ends it. -/
theorem run_spell (ht : t.Readable) (hrest : t.isWord = true → Ends rest) :
    run ⟨ts, .between⟩ (spell t ++ rest) = run ⟨ts ++ [t], .between⟩ rest := by
  cases t with
  | openArray | closeArray | openObject | closeObject | comma | colon => exact run_step rfl
  | null => exact run_word (by decide) (by decide) (by decide) (hrest rfl)
  | bool b =>
    cases b with
    | true => exact run_word (by decide) (by decide) (by decide) (hrest rfl)
    | false => exact run_word (by decide) (by decide) (by decide) (hrest rfl)
  | string s =>
    show run ⟨ts, .between⟩ (0x22 :: (quoteUnits s ++ [0x22]) ++ rest) = _
    rw [List.cons_append, run_step (m := ⟨ts, .string []⟩) rfl, List.append_assoc,
      List.singleton_append, run_quoteUnits, List.nil_append]
  | number x =>
    obtain ⟨c, cs, hspell, hc, hcs, hread⟩ := ht
    have hstart : Lexer.step ⟨ts, .between⟩ c = some ⟨ts, .number [c]⟩ := by
      have hrange : c = 0x2D ∨ (0x30 ≤ c ∧ c ≤ 0x39) := by
        simpa [Text.isDigit, or_comm] using hc
      have hspace : isSpace c = false := by
        simp only [isSpace, Bool.or_eq_false_iff, decide_eq_false_iff_not]
        omega
      simp [Lexer.step, start, hspace, hc, show c ≠ 0x22 by omega]
    rw [hspell, List.cons_append, run_step hstart, run_numerics hcs, List.singleton_append,
      run_numberToken hread (hrest rfl)]

/-! ## Values are read back -/

variable {stack : List Frame}

theorem ends_elementTokens (js : List Json) (rest : Text) :
    Ends ((elementTokens js).flatMap spell ++ rest) := by
  cases js with
  | nil => exact .cons (by decide) _
  | cons j js => exact .cons (by decide) _

theorem ends_fieldTokens (fields : List (Text × Json)) (rest : Text) :
    Ends ((fieldTokens fields).flatMap spell ++ rest) := by
  cases fields with
  | nil => exact .cons (by decide) _
  | cons field fields => exact .cons (by decide) _

/-- The first token of a text is read back. -/
theorem run_flatMap_cons {us : List Token} (ht : t.Readable)
    (hrest : t.isWord = true → Ends (us.flatMap spell ++ rest)) :
    run ⟨ts, .between⟩ ((t :: us).flatMap spell ++ rest) =
      run ⟨ts ++ [t], .between⟩ (us.flatMap spell ++ rest) := by
  rw [List.flatMap_cons, List.append_assoc, run_spell ht hrest]

/-- What is no word needs no end. -/
theorem run_flatMap_mark (t : Token) (hmark : t.isWord = false) {us : List Token} :
    run ⟨ts, .between⟩ ((t :: us).flatMap spell ++ rest) =
      run ⟨ts ++ [t], .between⟩ (us.flatMap spell ++ rest) := by
  refine run_flatMap_cons ?_ fun hword => absurd hword (by rw [hmark]; decide)
  cases t with
  | number x => cases hmark
  | _ => trivial

theorem run_flatMap_word (ht : t.Readable) (hrest : Ends rest) :
    run ⟨ts, .between⟩ ([t].flatMap spell ++ rest) = run ⟨ts ++ [t], .between⟩ rest :=
  run_flatMap_cons ht fun _ => hrest

mutual

/-- The tokens of a value are read back from its text. -/
theorem run_tokens (ts : List Token) : (j : Json) → (∀ t ∈ tokens j, t.Readable) →
    (after : Text) → Ends after →
      run ⟨ts, .between⟩ ((tokens j).flatMap spell ++ after) = run ⟨ts ++ tokens j, .between⟩ after
  | .null, _, after, hafter => run_flatMap_word trivial hafter
  | .bool b, _, after, hafter => run_flatMap_word trivial hafter
  | .number x, h, after, hafter => run_flatMap_word (h _ List.mem_cons_self) hafter
  | .string s, _, after, hafter => run_flatMap_word trivial hafter
  | .array [], _, after, hafter => by
    rw [tokens, run_flatMap_mark .openArray rfl, run_flatMap_mark .closeArray rfl,
      List.append_assoc]
    rfl
  | .array (j :: js), h, after, hafter => by
    rw [tokens] at h ⊢
    have hj : ∀ t ∈ tokens j, t.Readable := fun t ht =>
      h t (List.mem_append_left _ (List.mem_cons_of_mem _ ht))
    have hjs : ∀ t ∈ elementTokens js, t.Readable := fun t ht => h t (List.mem_append_right _ ht)
    rw [List.cons_append, run_flatMap_mark .openArray rfl, List.flatMap_append,
      List.append_assoc ((tokens j).flatMap spell),
      run_tokens _ j hj _ (ends_elementTokens js after),
      run_elementTokens _ js hjs after]
    simp only [List.append_assoc, List.cons_append, List.nil_append]
  | .object [], _, after, hafter => by
    rw [tokens, run_flatMap_mark .openObject rfl, run_flatMap_mark .closeObject rfl,
      List.append_assoc]
    rfl
  | .object ((key, j) :: fields), h, after, hafter => by
    rw [tokens] at h ⊢
    have hj : ∀ t ∈ tokens j, t.Readable := fun t ht =>
      h t (by simp only [List.cons_append, List.mem_cons, List.mem_append]; tauto)
    have hfields : ∀ t ∈ fieldTokens fields, t.Readable := fun t ht =>
      h t (List.mem_append_right _ ht)
    simp only [List.cons_append]
    rw [run_flatMap_mark .openObject rfl, run_flatMap_mark (.string key) rfl,
      run_flatMap_mark .colon rfl, List.flatMap_append,
      List.append_assoc ((tokens j).flatMap spell),
      run_tokens _ j hj _ (ends_fieldTokens fields after),
      run_fieldTokens _ fields hfields after]
    simp only [List.append_assoc, List.cons_append, List.nil_append]

theorem run_elementTokens (ts : List Token) : (js : List Json) →
    (∀ t ∈ elementTokens js, t.Readable) → (after : Text) →
      run ⟨ts, .between⟩ ((elementTokens js).flatMap spell ++ after) =
        run ⟨ts ++ elementTokens js, .between⟩ after
  | [], _, _ => run_flatMap_mark .closeArray rfl
  | j :: js, h, after => by
    rw [elementTokens] at h ⊢
    have hj : ∀ t ∈ tokens j, t.Readable := fun t ht =>
      h t (List.mem_append_left _ (List.mem_cons_of_mem _ ht))
    have hjs : ∀ t ∈ elementTokens js, t.Readable := fun t ht => h t (List.mem_append_right _ ht)
    rw [List.cons_append, run_flatMap_mark .comma rfl, List.flatMap_append,
      List.append_assoc ((tokens j).flatMap spell),
      run_tokens _ j hj _ (ends_elementTokens js after),
      run_elementTokens _ js hjs after]
    simp only [List.append_assoc, List.cons_append, List.nil_append]

theorem run_fieldTokens (ts : List Token) : (fields : List (Text × Json)) →
    (∀ t ∈ fieldTokens fields, t.Readable) → (after : Text) →
      run ⟨ts, .between⟩ ((fieldTokens fields).flatMap spell ++ after) =
        run ⟨ts ++ fieldTokens fields, .between⟩ after
  | [], _, _ => run_flatMap_mark .closeObject rfl
  | (key, j) :: fields, h, after => by
    rw [fieldTokens] at h ⊢
    have hj : ∀ t ∈ tokens j, t.Readable := fun t ht =>
      h t (by simp only [List.cons_append, List.mem_cons, List.mem_append]; tauto)
    have hfields : ∀ t ∈ fieldTokens fields, t.Readable := fun t ht =>
      h t (List.mem_append_right _ ht)
    simp only [List.cons_append]
    rw [run_flatMap_mark .comma rfl, run_flatMap_mark (.string key) rfl,
      run_flatMap_mark .colon rfl, List.flatMap_append,
      List.append_assoc ((tokens j).flatMap spell),
      run_tokens _ j hj _ (ends_fieldTokens fields after),
      run_fieldTokens _ fields hfields after]
    simp only [List.append_assoc, List.cons_append, List.nil_append]

end

/-- The tokens of a text are read back. -/
theorem lex_stringify {j : Json} (h : ∀ t ∈ tokens j, t.Readable) :
    lex (stringify j) = some (tokens j) := by
  have hrun := run_tokens [] j h [] .nil
  rwa [List.append_nil] at hrun

/-! ## Values are put together from their tokens -/

/-- The first token of a value does not end an array. -/
theorem foldlM_firstElement (j : Json) (us : List Token) :
    (tokens j ++ us).foldlM Builder.step (.firstElement stack) =
      (tokens j ++ us).foldlM Builder.step (.value (.array [] :: stack)) := by
  match j with
  | .null | .bool _ | .number _ | .string _ | .array [] | .array (_ :: _) | .object [] => rfl
  | .object ((key, j) :: fields) => rfl

mutual

/-- A value is put together from its tokens. -/
theorem foldlM_tokens (stack : List Frame) : (j : Json) → (us : List Token) →
    (tokens j ++ us).foldlM Builder.step (.value stack) =
      us.foldlM Builder.step (.complete stack j)
  | .null, us => rfl
  | .bool b, us => rfl
  | .number x, us => rfl
  | .string s, us => rfl
  | .array [], us => rfl
  | .array (j :: js), us => by
    rw [tokens, List.append_assoc, List.cons_append]
    show (tokens j ++ (elementTokens js ++ us)).foldlM Builder.step (.firstElement stack) = _
    rw [foldlM_firstElement, foldlM_tokens _ j]
    exact foldlM_elementTokens stack [j] js us
  | .object [], us => rfl
  | .object ((key, j) :: fields), us => by
    rw [tokens, List.append_assoc]
    show (tokens j ++ (fieldTokens fields ++ us)).foldlM Builder.step
      (.value (.object [] key :: stack)) = _
    rw [foldlM_tokens _ j]
    exact foldlM_fieldTokens stack [(key, j)] fields us

theorem foldlM_elementTokens (stack : List Frame) (elements : List Json) : (js : List Json) →
    (us : List Token) →
      (elementTokens js ++ us).foldlM Builder.step (.afterElement elements stack) =
        us.foldlM Builder.step (.complete stack (.array (elements ++ js)))
  | [], us => by rw [List.append_nil]; rfl
  | j :: js, us => by
    rw [elementTokens, List.append_assoc]
    show (tokens j ++ (elementTokens js ++ us)).foldlM Builder.step
      (.value (.array elements :: stack)) = _
    rw [foldlM_tokens _ j]
    show (elementTokens js ++ us).foldlM Builder.step (.afterElement (elements ++ [j]) stack) = _
    rw [foldlM_elementTokens stack _ js us, List.append_assoc, List.singleton_append]

theorem foldlM_fieldTokens (stack : List Frame) (before : List (Text × Json)) :
    (fields : List (Text × Json)) → (us : List Token) →
      (fieldTokens fields ++ us).foldlM Builder.step (.afterField before stack) =
        us.foldlM Builder.step (.complete stack (.object (before ++ fields)))
  | [], us => by rw [List.append_nil]; rfl
  | (key, j) :: fields, us => by
    rw [fieldTokens, List.append_assoc]
    show (tokens j ++ (fieldTokens fields ++ us)).foldlM Builder.step
      (.value (.object before key :: stack)) = _
    rw [foldlM_tokens _ j]
    show (fieldTokens fields ++ us).foldlM Builder.step
      (.afterField (before ++ [(key, j)]) stack) = _
    rw [foldlM_fieldTokens stack _ fields us, List.append_assoc, List.singleton_append]

end

theorem build_tokens (j : Json) : build (tokens j) = some j := by
  have hfold := foldlM_tokens [] j []
  rw [List.append_nil] at hfold
  unfold build
  rw [hfold]
  rfl

/-- Parsing inverts writing, if every number in the value is read back. -/
theorem parse_stringify {j : Json} (h : ∀ t ∈ tokens j, t.Readable) :
    parse (stringify j) = some j := by
  unfold parse
  rw [lex_stringify h, Option.bind_some, build_tokens]

theorem isNumeric_of_numeric {c : ℕ} (h : Number.IsNumeric c) : isNumeric c = true := by
  unfold isNumeric
  rcases h with h | rfl | rfl | rfl | rfl
  · simp [h]
  all_goals rfl

/-- Doubles are read back. -/
theorem readBack_double {x : ℚ} (hx : Number.IsDouble x) : ReadBack (.finite x) := by
  obtain ⟨cs, q, hreads, ⟨htext, hq⟩ | ⟨htext, hq⟩⟩ := Number.reads_toText hx
  · obtain ⟨c, rest, rfl, hc⟩ := hreads.head
    refine ⟨c, rest, htext, by simp [hc], fun d hd => ?_, ?_⟩
    · exact isNumeric_of_numeric (hreads.numeric d (List.mem_cons_of_mem _ hd))
    · rw [numberToken, hreads.value, Option.map_some, Number.ofRat_of_nearest hx hq]
  · refine ⟨0x2D, cs, htext, rfl, fun d hd => isNumeric_of_numeric (hreads.numeric d hd), ?_⟩
    rw [numberToken, hreads.neg, Option.map_some, Number.ofRat_of_nearest hx hq]

/-- The natural numbers below `2 ^ 53` are read back. -/
theorem readBack_natCast {n : ℕ} (hn : n < 2 ^ 53) : ReadBack (.finite n) :=
  readBack_double (Number.isDouble_natCast hn)

/-- A value that `JSON.stringify` writes as it is: its numbers are doubles. -/
def Writable (j : Json) : Prop := ∀ x, .number x ∈ tokens j → ∃ q, x = .finite q ∧ Number.IsDouble q

theorem Writable.readable {j : Json} (h : j.Writable) : ∀ t ∈ tokens j, t.Readable := by
  intro t ht
  cases t with
  | number x =>
    obtain ⟨q, rfl, hq⟩ := h x ht
    exact readBack_double hq
  | _ => trivial

theorem writable_string (s : Text) : (string s).Writable := by
  intro x hx
  cases hx with
  | tail _ hx => cases hx

theorem writable_number {x : ℚ} (hx : Number.IsDouble x) : (number (.finite x)).Writable := by
  intro y hy
  obtain rfl := Token.number.inj (List.mem_singleton.mp hy)
  exact ⟨x, rfl, hx⟩

/-- The numbers of an object are those of its fields. -/
theorem number_mem_tokens_object {x : Number} {fields : List (Text × Json)} :
    .number x ∈ tokens (.object fields) ↔ ∃ p ∈ fields, .number x ∈ tokens p.2 := by
  have hrest : ∀ fields : List (Text × Json),
      .number x ∈ fieldTokens fields ↔ ∃ p ∈ fields, .number x ∈ tokens p.2 := by
    intro fields
    induction fields with
    | nil => simp [fieldTokens]
    | cons p fields ih => simp [fieldTokens, ih]
  cases fields with
  | nil => simp [tokens]
  | cons p fields => simp [tokens, hrest fields]

theorem writable_object {fields : List (Text × Json)} :
    (object fields).Writable ↔ ∀ p ∈ fields, p.2.Writable := by
  unfold Writable
  simp only [number_mem_tokens_object]
  constructor
  · intro h p hp x hx
    exact h x ⟨p, hp, hx⟩
  · rintro h x ⟨p, hp, hx⟩
    exact h p hp x hx

end Json
