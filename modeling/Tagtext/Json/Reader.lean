import Tagtext.Json
import Tagtext.Text.Digits

/-!
# Reading JSON

`Json.parse?` reads a whole text as one value: strict JSON, with white space
allowed around every token, the last of several members with one name, and at
most 127 arrays and objects inside one another.

An integer without point and exponent that fits 64 bits stays an integer.  Any
other number becomes a double: of its digits those count that fit 64 bits
together, a dropped digit in front of the point standing for a power of ten.
-/

namespace Tagtext

namespace Json

/-- White space between tokens. -/
def isSpace (c : Char) : Bool := c == ' ' || c == '\n' || c == '\t' || c == '\r'

/-- Drops white space at the start. -/
def skipSpace (s : Text) : Text := s.dropWhile isSpace

/-- Adds a digit to a significand, if the result fits 64 bits. -/
def addDigit? (significand : Nat) (c : Char) : Option Nat :=
  let n := significand * 10 + valueIn 10 [c]
  if n < 0x10000000000000000 then some n else none

/-- The digits of a whole number: the significand, and how many digits did not fit. -/
def wholeDigits : Nat → Text → Nat × Nat
  | n, [] => (n, 0)
  | n, c :: r =>
    match addDigit? n c with
    | some m => wholeDigits m r
    | none => (n, r.length + 1)

/-- The digits behind a point: the significand, and how many of them it took up. -/
def pointDigits : Nat → Text → Nat × Nat
  | n, [] => (n, 0)
  | n, c :: r =>
    match addDigit? n c with
    | some m => let (k, used) := pointDigits m r; (k, used + 1)
    | none => (n, 0)

/-- The digits at the start of a text, and what follows. -/
def spanDigits (s : Text) : Text × Text := s.span Char.isDigit

/-- An optional fraction: the digits behind the point. -/
def readFraction : Text → Option (Option Text × Text)
  | '.' :: r =>
    match spanDigits r with
    | ([], _) => none
    | (digits, rest) => some (some digits, rest)
  | s => some (none, s)

/-- An optional exponent. -/
def readExponent : Text → Option (Option Int × Text)
  | c :: r =>
    if c = 'e' ∨ c = 'E' then
      let (negative, r) := match r with
        | '-' :: r' => (true, r')
        | '+' :: r' => (false, r')
        | _ => (false, r)
      match spanDigits r with
      | ([], _) => none
      | (digits, rest) =>
        let n : Int := valueIn 10 digits
        some (some (if negative then -n else n), rest)
    else some (none, c :: r)
  | [] => some (none, [])

/-- The number that the parts of a numeral make. -/
def assemble (negative : Bool) (whole : Text) (fraction : Option Text) (exponent : Option Int) :
    Option Number :=
  let (n, dropped) := wholeDigits 0 whole
  match fraction, exponent, dropped with
  | none, none, 0 =>
    if !negative then some (.int n)
    else if n = 0 ∨ 0x8000000000000000 < n then (Binary64.ofDecimal? true n 0).map .float
    else some (.int (-n))
  | _, _, _ =>
    let (m, used) := pointDigits n (fraction.getD [])
    (Binary64.ofDecimal? negative m (dropped - used + exponent.getD 0)).map .float

/-- A number at the start of a text. -/
def readNumber (s : Text) : Option (Number × Text) := do
  let (negative, r) := match s with
    | '-' :: r => (true, r)
    | _ => (false, s)
  let (whole, r) := spanDigits r
  if whole.isEmpty || (whole.head? == some '0' && whole.length != 1) then none
  let (fraction, r) ← readFraction r
  let (exponent, r) ← readExponent r
  let n ← assemble negative whole fraction exponent
  some (n, r)

/-- Four hexadecimal digits. -/
def readHex4 : Text → Option (Nat × Text)
  | a :: b :: c :: d :: r => (digitsIn? 16 [a, b, c, d]).map fun n => (n, r)
  | _ => none

/-- The character that one `\u` escape spells, or two that make a surrogate pair. -/
def readUnicode (s : Text) : Option (Char × Text) := do
  let (n, r) ← readHex4 s
  if 0xDC00 ≤ n && n ≤ 0xDFFF then none
  else if 0xD800 ≤ n && n ≤ 0xDBFF then
    match r with
    | '\\' :: 'u' :: r =>
      let (m, r) ← readHex4 r
      if 0xDC00 ≤ m && m ≤ 0xDFFF then
        some (Char.ofNat (0x10000 + (n - 0xD800) * 0x400 + (m - 0xDC00)), r)
      else none
    | _ => none
  else some (Char.ofNat n, r)

/-- The character that a one-letter escape spells. -/
def simpleEscape? (c : Char) : Option Char :=
  match c with
  | '"' => some '"'
  | '\\' => some '\\'
  | '/' => some '/'
  | 'b' => some '\x08'
  | 'f' => some '\x0c'
  | 'n' => some '\n'
  | 'r' => some '\r'
  | 't' => some '\t'
  | _ => none

/-- The string whose opening quote has been read. -/
def readString : Nat → Text → Option (Text × Text)
  | 0, _ => none
  | _, [] => none
  | _, '"' :: r => some ([], r)
  | fuel + 1, '\\' :: 'u' :: r => do
    let (c, r) ← readUnicode r
    let (s, r) ← readString fuel r
    some (c :: s, r)
  | fuel + 1, '\\' :: e :: r => do
    let c ← simpleEscape? e
    let (s, r) ← readString fuel r
    some (c :: s, r)
  | fuel + 1, c :: r =>
    if c.toNat < 32 || c == '\\' then none
    else do
      let (s, r) ← readString fuel r
      some (c :: s, r)

/-- A word that stands for a value. -/
def readWord (word : Text) (v : Json) (s : Text) : Option (Json × Text) :=
  if word.isPrefixOf s then some (v, s.drop word.length) else none

mutual

/-- A value at the start of a text; `depth` more arrays and objects may open. -/
def readValue : Nat → Nat → Text → Option (Json × Text)
  | 0, _, _ => none
  | fuel + 1, depth, s =>
    match s with
    | '"' :: r => do
      let (t, r) ← readString fuel r
      some (string t, r)
    | '[' :: r =>
      if depth = 0 then none
      else
        match skipSpace r with
        | ']' :: r => some (array [], r)
        | r => do
          let (items, r) ← readItems fuel (depth - 1) r
          some (array items, r)
    | '\x7b' :: r =>
      if depth = 0 then none
      else
        match skipSpace r with
        | '\x7d' :: r => some (object [], r)
        | r => do
          let (members, r) ← readMembers fuel (depth - 1) r
          some (ofEntries members, r)
    | 't' :: _ => readWord "true".toList (bool true) s
    | 'f' :: _ => readWord "false".toList (bool false) s
    | 'n' :: _ => readWord "null".toList null s
    | _ => do
      let (n, r) ← readNumber s
      some (number n, r)

/-- The items of an array, up to and with its closing bracket. -/
def readItems : Nat → Nat → Text → Option (List Json × Text)
  | 0, _, _ => none
  | fuel + 1, depth, s => do
    let (v, r) ← readValue fuel depth (skipSpace s)
    match skipSpace r with
    | ',' :: r =>
      let (vs, r) ← readItems fuel depth r
      some (v :: vs, r)
    | ']' :: r => some ([v], r)
    | _ => none

/-- The members of an object, up to and with its closing brace. -/
def readMembers : Nat → Nat → Text → Option (List (Text × Json) × Text)
  | 0, _, _ => none
  | fuel + 1, depth, s =>
    match skipSpace s with
    | '"' :: r => do
      let (k, r) ← readString fuel r
      match skipSpace r with
      | ':' :: r =>
        let (v, r) ← readValue fuel depth (skipSpace r)
        match skipSpace r with
        | ',' :: r =>
          let (ms, r) ← readMembers fuel depth r
          some ((k, v) :: ms, r)
        | '\x7d' :: r => some ([(k, v)], r)
        | _ => none
      | _ => none
    | _ => none

end

/-- The value that a whole text spells.  Every step takes a character or two, so twice the length
of the text is fuel enough. -/
def parse? (s : Text) : Option Json :=
  match readValue (2 * s.length + 2) 127 (skipSpace s) with
  | some (v, r) => if (skipSpace r).isEmpty then some v else none
  | none => none

end Json

end Tagtext
