import Tagtext.Binary64
import Tagtext.Text.Blank
import Tagtext.Text.Digits

/-!
# Tokens of templates

What stands between the delimiters of an insertion is made of words, strings,
numbers and marks, with ASCII blanks between them.

A whole number may be spelt in base two, eight or sixteen behind `0b`, `0o` or
`0x`.  A point behind decimal digits belongs to the number unless the name of a
member follows it; an `e` belongs to it in any case.  Underscores in a number do
not count, but none may end it.
-/

namespace Tagtext

namespace Template

/-- A token inside an insertion. -/
inductive Token where
  | word (name : Text)
  | string (value : Text)
  | whole (value : Nat)
  | float (value : Binary64)
  | mark (symbol : Text)
  deriving DecidableEq, Repr

/-! ## Words and marks -/

/-- Whether a character may start a word. -/
def isWordStart (c : Char) : Bool := c.isAlpha || c == '_'

/-- Whether a character may stand in a word. -/
def isWordPart (c : Char) : Bool := c.isAlphanum || c == '_'

/-- The marks of two characters. -/
def doubleMarks : List Text := ["//", "**", "==", "!=", ">=", "<="].map (·.toList)

/-- The marks of one character. -/
def singleMarks : Text := "+-*/%.,:~|=><()[]\x7b\x7d".toList

/-! ## Strings -/

/-- The characters of a string up to its closing quote, escapes left as they are. -/
def splitString (quote : Char) : Text → Option (Text × Text)
  | [] => none
  | [c] => if c = quote then some ([], []) else none
  | c :: d :: r =>
    if c = '\\' then (splitString quote r).map fun (t, rest) => (c :: d :: t, rest)
    else if c = quote then some ([], d :: r)
    else (splitString quote (d :: r)).map fun (t, rest) => (c :: t, rest)

/-- Some hexadecimal digits at the start of a text, a plus sign allowed in place of the first. -/
def hexadecimal? (count : Nat) (s : Text) : Option (Nat × Text) :=
  if s.length < count then none
  else
    let digits := match s.take count with
      | '+' :: r => r
      | t => t
    (digitsIn? 16 digits).map fun n => (n, s.drop count)

/-- The character that one `\u` escape spells, or two that make a surrogate pair. -/
def unicodeEscape? (s : Text) : Option (Char × Text) := do
  let (n, r) ← hexadecimal? 4 s
  if 0xDC00 ≤ n && n ≤ 0xDFFF then none
  else if 0xD800 ≤ n && n ≤ 0xDBFF then
    match r with
    | '\\' :: 'u' :: r =>
      let (m, r) ← hexadecimal? 4 r
      if 0xDC00 ≤ m && m ≤ 0xDFFF then
        some (Char.ofNat (0x10000 + (n - 0xD800) * 0x400 + (m - 0xDC00)), r)
      else none
    | _ => none
  else some (Char.ofNat n, r)

/-- The character below 256 that up to three octal digits spell. -/
def octalEscape? (s : Text) : Option (Char × Text) :=
  let digits := (s.take 3).takeWhile fun c => '0' ≤ c && c ≤ '7'
  let n := valueIn 8 digits
  if n < 256 then some (Char.ofNat n, s.drop digits.length) else none

/-- What the escape behind a backslash spells, and what follows it.  A backslash in front of a
character that needs none stays. -/
def escape? : Text → Option (Text × Text)
  | [] => none
  | 'u' :: r => (unicodeEscape? r).map fun (c, r) => ([c], r)
  | 'x' :: r => (hexadecimal? 2 r).map fun (n, r) => ([Char.ofNat n], r)
  | 'b' :: r => some (['\x08'], r)
  | 'f' :: r => some (['\x0c'], r)
  | 'n' :: r => some (['\n'], r)
  | 'r' :: r => some (['\r'], r)
  | 't' :: r => some (['\t'], r)
  | c :: r =>
    if '0' ≤ c ∧ c ≤ '7' then (octalEscape? (c :: r)).map fun (c, r) => ([c], r)
    else if c = '"' ∨ c = '\'' ∨ c = '\\' ∨ c = '/' then some ([c], r)
    else some (['\\', c], r)

/-- The string that characters with escapes spell. -/
def unescape : Nat → Text → Option Text
  | 0, _ => none
  | _, [] => some []
  | fuel + 1, '\\' :: r => do
    let (t, r) ← escape? r
    some (t ++ (← unescape fuel r))
  | fuel + 1, c :: r => (unescape fuel r).map (c :: ·)

/-! ## Numbers -/

/-- A number's characters in front of a point or an exponent, and what follows. -/
def spanDigits (isDigit : Char → Bool) (s : Text) : Text × Text :=
  s.span fun c => isDigit c || c == '_'

/-- The characters of an exponent, if one starts here, and what follows. -/
def spanExponent : Text → Text × Text
  | c :: r =>
    if c = 'e' ∨ c = 'E' then
      let underscores := r.takeWhile (· == '_')
      let (sign, r) := match r.drop underscores.length with
        | '+' :: r => (['+'], r)
        | '-' :: r => (['-'], r)
        | r => ([], r)
      let (digits, r) := spanDigits Char.isDigit r
      (c :: underscores ++ sign ++ digits, r)
    else ([], c :: r)
  | [] => ([], [])

/-- Whether an exponent of ten starts here: a letter, perhaps a sign, and a digit. -/
def startsExponent : Text → Bool
  | e :: r => (e == 'e' || e == 'E') && (dropSign r).head?.any Char.isDigit
  | [] => false

/-- Whether the name of a member starts here. -/
def startsMember (s : Text) : Bool := s.head?.any isWordStart && !startsExponent s

/-- The characters of a decimal number, and what follows. -/
def spanDecimal (s : Text) : Text × Text :=
  let (whole, r) := spanDigits Char.isDigit s
  let (part, r) := match r with
    | '.' :: member =>
      if startsMember member then ([], r)
      else
        let (digits, r) := spanDigits Char.isDigit member
        ('.' :: digits, r)
    | _ => ([], r)
  let (exponent, r) := spanExponent r
  (whole ++ part ++ exponent, r)

/-- A whole number below 2^128. -/
def wholeToken? (base : Nat) (digits : Text) : Option Token :=
  ((digitsIn? base digits).filter (· < 0x100000000000000000000000000000000)).map .whole

/-- The token that the characters of a number spell behind the mark of a base. -/
def numberToken? (base : Nat) (spelling : Text) : Option Token :=
  let digits := spelling.filter (· != '_')
  if spelling.getLast? = some '_' then none
  else if base = 10 && !digits.all Char.isDigit then
    (fractional? digits).map fun (d, e) => .float (.ofScientific d e)
  else wholeToken? base digits

/-- A number at the start of a text, and what follows. -/
def readNumber? (s : Text) : Option (Token × Text) :=
  let (base, (spelling, rest)) := match s with
    | '0' :: c :: r =>
      if c = 'x' ∨ c = 'X' then (16, spanDigits (fun c => (digitValue? c).isSome) r)
      else if c = 'o' ∨ c = 'O' then (8, spanDigits Char.isDigit r)
      else if c = 'b' ∨ c = 'B' then (2, spanDigits Char.isDigit r)
      else (10, spanDecimal s)
    | _ => (10, spanDecimal s)
  (numberToken? base spelling).map fun t => (t, rest)

/-! ## Insertions -/

/-- The token at the start of a text that starts with no blank, and what follows. -/
def readToken? (s : Text) : Option (Token × Text) :=
  match s with
  | [] => none
  | c :: r =>
    if doubleMarks.contains (s.take 2) then some (.mark (s.take 2), s.drop 2)
    else if singleMarks.contains c then some (.mark [c], r)
    else if c = '"' ∨ c = '\'' then do
      let (t, rest) ← splitString c r
      let value ← unescape (t.length + 1) t
      some (.string value, rest)
    else if c.isDigit then readNumber? s
    else if isWordStart c then
      let (name, rest) := s.span isWordPart
      some (.word name, rest)
    else none

/-- The tokens up to a closing delimiter, whether it takes the blanks behind it away, and what
follows it. -/
def readTokens (close : Text) : Nat → Text → Option (List Token × Bool × Text)
  | 0, _ => none
  | fuel + 1, s =>
    let s := s.dropWhile isAsciiBlank
    if close.isPrefixOf s then some ([], false, s.drop close.length)
    else if ('-' :: close).isPrefixOf s then some ([], true, s.drop (close.length + 1))
    else if ('+' :: close).isPrefixOf s then some ([], false, s.drop (close.length + 1))
    else do
      let (t, r) ← readToken? s
      let (ts, trims, rest) ← readTokens close fuel r
      some (t :: ts, trims, rest)

end Template

end Tagtext
