import Tagtext.Yaml

/-!
# Scalars in YAML text

A cursor stands in a text and knows its line, its column, and how many bytes are
behind it.  Scalars run over lines: gaps around a line break go, a single line
feed becomes a space, and of several the first goes; the line and paragraph
separators of Unicode stay.  In quotes a line that starts with the mark of a
document is a fault; without quotes it ends the scalar.
-/

namespace Tagtext

namespace Yaml

/-- Space or tab. -/
def isGap (c : Char) : Bool := c == ' ' || c == '\t'

/-- Line feed, line separator or paragraph separator. -/
def isBreak (c : Char) : Bool := c == '\n' || c == '\u2028' || c == '\u2029'

/-- Gap or line break. -/
def isGapOrBreak (c : Char) : Bool := isGap c || isBreak c

/-- Whether a token ends in front of this text. -/
def endsToken : Text → Bool
  | [] => true
  | c :: _ => isGapOrBreak c

/-- Makes one line feed of carriage return, next line, and the two of carriage return, line feed. -/
def unifyBreaks : Text → Text
  | [] => []
  | '\r' :: '\n' :: r => '\n' :: unifyBreaks r
  | c :: r => (if c = '\r' ∨ c = '\u0085' then '\n' else c) :: unifyBreaks r

/-! ## Cursors -/

/-- A place in a text: what follows it, the bytes in front of it, its line and its column. -/
structure Cursor where
  rest : Text
  offset : Nat := 0
  line : Nat := 0
  column : Nat := 0

/-- Goes over one character. -/
def Cursor.next (k : Cursor) : Cursor :=
  match k.rest with
  | [] => k
  | c :: r =>
    if isBreak c then ⟨r, k.offset + c.utf8Size, k.line + 1, 0⟩
    else ⟨r, k.offset + c.utf8Size, k.line, k.column + 1⟩

/-- Goes over some characters. -/
def Cursor.skip : Nat → Cursor → Cursor
  | 0, k => k
  | n + 1, k => k.next.skip n

/-- Whether a line starts here with the mark of a document. -/
def Cursor.atMark (k : Cursor) : Bool :=
  k.column == 0 && ["---", "..."].any (·.toList == k.rest.take 3) && endsToken (k.rest.drop 3)

/-! ## Runs of blanks -/

/-- A run of gaps and line breaks inside a scalar. -/
structure Blanks where
  /-- The gaps in front of any line break. -/
  gaps : Text := []
  /-- The first line break; empty if it was escaped. -/
  first : Option Text := none
  /-- The line breaks behind it. -/
  more : Text := []

/-- Takes in the next character. -/
def Blanks.add (b : Blanks) (c : Char) : Blanks :=
  match b.first with
  | some _ => if isBreak c then { b with more := b.more ++ [c] } else b
  | none => if isBreak c then { b with gaps := [], first := some [c] }
    else { b with gaps := b.gaps ++ [c] }

/-- The text that a run stands for. -/
def Blanks.text (b : Blanks) : Text :=
  match b.first with
  | none => b.gaps
  | some first =>
    if first = ['\n'] then if b.more.isEmpty then [' '] else b.more
    else first ++ b.more

/-- Whether a run has a tab left of a column, on a line that starts in it.  `column` is the one
reached on such a line. -/
def hasTabBefore (low : Nat) : Option Nat → Text → Bool
  | _, [] => false
  | column, c :: r =>
    if isBreak c then hasTabBefore low (some 0) r
    else (c == '\t' && column.any (· < low)) || hasTabBefore low (column.map (· + 1)) r

/-! ## Scalars in quotes -/

/-- The character that a one-letter escape spells. -/
def escape? (c : Char) : Option Char :=
  match c with
  | '0' => some '\x00'
  | 'a' => some '\x07'
  | 'b' => some '\x08'
  | 't' | '\t' => some '\t'
  | 'n' => some '\n'
  | 'v' => some '\x0b'
  | 'f' => some '\x0c'
  | 'r' => some '\r'
  | 'e' => some '\x1b'
  | ' ' => some ' '
  | '"' => some '"'
  | '/' => some '/'
  | '\\' => some '\\'
  | 'N' => some '\u0085'
  | '_' => some '\u00a0'
  | 'L' => some '\u2028'
  | 'P' => some '\u2029'
  | _ => none

/-- How many hexadecimal digits follow the letter of an escape. -/
def escapeWidth? (c : Char) : Option Nat :=
  match c with
  | 'x' => some 2
  | 'u' => some 4
  | 'U' => some 8
  | _ => none

/-- The character with a code point, if there is one. -/
def codePoint? (n : Nat) : Option Char := if n.isValidChar then some (Char.ofNat n) else none

/-- The character that an escape with this letter spells, and what follows it. -/
def readEscape? (letter : Char) (r : Text) : Option (Char × Text) :=
  match escapeWidth? letter with
  | none => (escape? letter).map (·, r)
  | some width =>
    let digits := r.take width
    if digits.length = width then
      ((digitsIn? 16 digits).bind codePoint?).map (·, r.drop width)
    else none

/-- What a run of characters between blanks spells, whether an escaped line break ends it, and what
follows it.  It ends in front of the closing quote as well. -/
def quotedRun (quote : Char) : Nat → Text → Option (Text × Bool × Text)
  | 0, _ => none
  | _, [] => some ([], false, [])
  | fuel + 1, c :: r =>
    let push (d : Char) (r : Text) : Option (Text × Bool × Text) :=
      (quotedRun quote fuel r).map fun (t, rest) => (d :: t, rest)
    if isGapOrBreak c then some ([], false, c :: r)
    else if c = quote then
      if quote = '\'' ∧ r.head? = some '\'' then push '\'' r.tail else some ([], false, c :: r)
    else if c = '\\' ∧ quote = '"' then
      match r with
      | [] => none
      | d :: r =>
        if isBreak d then some ([], true, r)
        else do
          let (d, r) ← readEscape? d r
          push d r
    else push c r

/-- The text of a quoted scalar whose opening quote is behind the cursor. -/
def quoted (quote : Char) : Nat → Cursor → Option (Text × Cursor)
  | 0, _ => none
  | fuel + 1, k =>
    if k.atMark || k.rest.isEmpty then none
    else do
      let (run, escaped, rest) ← quotedRun quote (k.rest.length + 1) k.rest
      let k := k.skip (k.rest.length - rest.length)
      if rest.head? = some quote then some (run, k.next)
      else
        let gap := rest.takeWhile isGapOrBreak
        let blanks := gap.foldl Blanks.add { first := if escaped then some [] else none }
        let (more, k) ← quoted quote fuel (k.skip gap.length)
        some (run ++ blanks.text ++ more, k)

/-! ## Scalars without quotes -/

/-- The marks of collections in brackets. -/
def isFlowMark (c : Char) : Bool := c == ',' || c == '[' || c == ']' || c == '\x7b' || c == '\x7d'

/-- A run of characters between blanks.  It ends in front of the colon of an entry, and in brackets
in front of a mark; there a colon directly in front of a mark is a fault. -/
def plainRun (inFlow : Bool) : Text → Option Text
  | [] => some []
  | c :: r =>
    if isGapOrBreak c || (inFlow && isFlowMark c) then some []
    else if c = ':' ∧ endsToken r then some []
    else if inFlow && c == ':' && r.head?.any (fun d => isFlowMark d || d == '?') then none
    else (plainRun inFlow r).map (c :: ·)

/-- The text of a plain scalar, and whether a line break follows it.  Outside brackets its further
lines stand at the column `low` or further right. -/
def plain (inFlow : Bool) (low : Nat) : Nat → Cursor → Option (Text × Bool × Cursor)
  | 0, _ => none
  | fuel + 1, k =>
    if k.atMark || k.rest.head? == some '#' then some ([], false, k)
    else do
      let run ← plainRun inFlow k.rest
      let k := k.skip run.length
      let gap := k.rest.takeWhile isGapOrBreak
      if hasTabBefore low none gap then none
      let blanks := gap.foldl Blanks.add {}
      let k := k.skip gap.length
      if gap.isEmpty then some (run, false, k)
      else if !inFlow && k.column < low then some (run, blanks.first.isSome, k)
      else
        let (more, broken, k) ← plain inFlow low fuel k
        if more.isEmpty then some (run, blanks.first.isSome, k)
        else some (run ++ blanks.text ++ more, broken, k)

end Yaml

end Tagtext
