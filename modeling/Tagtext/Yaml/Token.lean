import Tagtext.Yaml.Scalar

/-!
# Tokens of YAML text

Outside brackets the structure of a text is in its columns: the entries of a
mapping and the items of a sequence stand in one column, and what belongs to one
of them stands further right.  Scanning makes this explicit: it puts a token
where a block starts and one where it ends.

Whether a value is a key is known only at the colon behind it.  Until then its
place is kept as a possible key (`KeyStart`); a key takes one line and at most
1024 bytes.  There are no anchors, tags, directives or block scalars.
-/

namespace Tagtext

namespace Yaml

/-- A token. -/
inductive Token where
  | documentStart
  | documentEnd
  | sequenceBlock
  | mappingBlock
  | blockEnd
  | openSequence
  | closeSequence
  | openMapping
  | closeMapping
  /-- The hyphen of an item. -/
  | item
  /-- The comma in brackets. -/
  | separator
  | key
  | value
  | scalar (text : Text) (plain : Bool)
  deriving DecidableEq, Repr

/-- Where a key may have started. -/
structure KeyStart where
  /-- How many tokens were in front of it. -/
  index : Nat
  /-- Whether nothing but a key can stand here. -/
  required : Bool
  place : Cursor

/-- How far a text is scanned. -/
structure Scanner where
  cursor : Cursor
  /-- The tokens so far, the last one first. -/
  tokens : List Token := []
  /-- The columns of the open blocks, the innermost first. -/
  columns : List Nat := []
  /-- Where a key may have started inside the innermost brackets. -/
  start : Option KeyStart := none
  /-- The same for the brackets around, one for each pair. -/
  outer : List (Option KeyStart) := []
  /-- Whether a key may start here. -/
  keyAllowed : Bool := true

namespace Scanner

/-- Whether there are open brackets. -/
def inFlow (s : Scanner) : Bool := !s.outer.isEmpty

/-- Adds a token. -/
def put (t : Token) (s : Scanner) : Scanner := { s with tokens := t :: s.tokens }

/-- Adds a token with only `index` others in front of it. -/
def putAt (index : Nat) (t : Token) (s : Scanner) : Scanner :=
  { s with tokens := s.tokens.insertIdx (s.tokens.length - index) t }

/-- Goes over some characters. -/
def skip (n : Nat) (s : Scanner) : Scanner := { s with cursor := s.cursor.skip n }

/-- Says whether a key may start next. -/
def allowKey (allowed : Bool) (s : Scanner) : Scanner := { s with keyAllowed := allowed }

/-! ## Possible keys -/

/-- Gives up a possible key; a fault if there had to be one. -/
def giveUp : Option KeyStart → Option (Option KeyStart)
  | some k => if k.required then none else some none
  | none => some none

/-- Forgets where a key may have started. -/
def forget (s : Scanner) : Option Scanner := (giveUp s.start).map fun start => { s with start }

/-- Gives up a possible key that takes too much room. -/
def expire (now : Cursor) (k : Option KeyStart) : Option (Option KeyStart) :=
  if k.any fun k => k.place.line < now.line || k.place.offset + 1024 < now.offset then giveUp k
  else some k

/-- Gives up all possible keys that take too much room. -/
def expireAll (s : Scanner) : Option Scanner := do
  let start ← expire s.cursor s.start
  let outer ← s.outer.mapM (expire s.cursor)
  some { s with start, outer }

/-- Notes that a key may start here. -/
def note (s : Scanner) : Option Scanner :=
  if s.keyAllowed then
    let required := !s.inFlow && s.columns.head? == some s.cursor.column
    s.forget.map fun s => { s with start := some ⟨s.tokens.length, required, s.cursor⟩ }
  else some s

/-! ## Blocks -/

/-- Opens a block in a column, unless one is open there or further right. -/
def openBlock (column index : Nat) (t : Token) (s : Scanner) : Scanner :=
  if !s.inFlow && s.columns.head?.all (· < column) then
    { s with columns := column :: s.columns }.putAt index t
  else s

/-- Closes the blocks that `stays` does not hold of. -/
def closeBlocks (stays : Nat → Bool) (s : Scanner) : Scanner :=
  if s.inFlow then s
  else
    let (closed, columns) := s.columns.span (!stays ·)
    { s with columns, tokens := closed.map (fun _ => .blockEnd) ++ s.tokens }

/-! ## Single tokens -/

/-- The mark of a document. -/
def document (t : Token) (s : Scanner) : Option Scanner :=
  (s.closeBlocks fun _ => false).forget.map fun s => ((s.allowKey false).skip 3).put t

/-- An opening bracket. -/
def openBracket (t : Token) (s : Scanner) : Option Scanner :=
  s.note.map fun s =>
    ({ s with outer := s.start :: s.outer, start := none, keyAllowed := true }.skip 1).put t

/-- A closing bracket. -/
def closeBracket (t : Token) (s : Scanner) : Option Scanner :=
  s.forget.map fun s =>
    ({ s with outer := s.outer.tail, start := s.outer.head?.join, keyAllowed := false }.skip 1).put t

/-- A comma in brackets. -/
def separator (s : Scanner) : Option Scanner :=
  s.forget.map fun s => ((s.allowKey true).skip 1).put .separator

/-- The hyphen of an item. -/
def item (s : Scanner) : Option Scanner :=
  if !s.inFlow && !s.keyAllowed then none
  else
    (s.openBlock s.cursor.column s.tokens.length .sequenceBlock).forget.map fun s =>
      ((s.allowKey true).skip 1).put .item

/-- The question mark of a key. -/
def key (s : Scanner) : Option Scanner :=
  if !s.inFlow && !s.keyAllowed then none
  else
    (s.openBlock s.cursor.column s.tokens.length .mappingBlock).forget.map fun s =>
      ((s.allowKey !s.inFlow).skip 1).put .key

/-- The colon of a value. -/
def value (s : Scanner) : Option Scanner :=
  match s.start with
  | some k =>
    let s := (s.putAt k.index .key).openBlock k.place.column k.index .mappingBlock
    some (({ s with start := none, keyAllowed := false }.skip 1).put .value)
  | none =>
    if !s.inFlow && !s.keyAllowed then none
    else
      let s := s.openBlock s.cursor.column s.tokens.length .mappingBlock
      some (((s.allowKey !s.inFlow).skip 1).put .value)

/-- A scalar in quotes. -/
def quotedScalar (quote : Char) (s : Scanner) : Option Scanner := do
  let s ← s.note
  let k := s.cursor.next
  let (t, cursor) ← quoted quote (k.rest.length + 1) k
  some ({ s with cursor, keyAllowed := false }.put (.scalar t false))

/-- A scalar without quotes. -/
def plainScalar (s : Scanner) : Option Scanner := do
  let s ← s.note
  let low := s.columns.head?.elim 0 (· + 1)
  let (t, broken, cursor) ← plain s.inFlow low (s.cursor.rest.length + 1) s.cursor
  some ({ s with cursor, keyAllowed := broken }.put (.scalar t true))

/-- The characters that no scalar without quotes starts with, a hyphen, a question mark and a colon
apart. -/
def isReserved (c : Char) : Bool := isFlowMark c || "#&*!|>'\"%@`".toList.contains c

/-- Takes the token that starts with `c`. -/
def token (c : Char) (r : Text) (s : Scanner) : Option Scanner :=
  if s.cursor.atMark then s.document (if c == '-' then .documentStart else .documentEnd)
  else if c = '[' then s.openBracket .openSequence
  else if c = '\x7b' then s.openBracket .openMapping
  else if c = ']' then s.closeBracket .closeSequence
  else if c = '\x7d' then s.closeBracket .closeMapping
  else if c = ',' then s.separator
  else if c = '-' then if endsToken r then s.item else s.plainScalar
  else if c = '?' then if s.inFlow || endsToken r then s.key else s.plainScalar
  else if c = ':' then if s.inFlow || endsToken r then s.value else s.plainScalar
  else if c = '\'' ∨ c = '"' then s.quotedScalar c
  else if isReserved c || isGapOrBreak c then none
  else s.plainScalar

/-! ## Whole texts -/

/-- How many characters stand in front of the next token, and whether a key may start there.  A
tab may stand only where no key may start, and a byte order mark only at the start of a line. -/
def leading (inFlow : Bool) : Bool → Bool → Bool → Text → Nat × Bool
  | keyAllowed, _, _, [] => (0, keyAllowed)
  | keyAllowed, inComment, atStart, c :: r =>
    let past (keyAllowed inComment atStart : Bool) : Nat × Bool :=
      let (n, allowed) := leading inFlow keyAllowed inComment atStart r
      (n + 1, allowed)
    if isBreak c then past (keyAllowed || !inFlow) false true
    else if inComment then past keyAllowed true false
    else if c == ' ' || (c == '\t' && (inFlow || !keyAllowed)) || (c == '\uFEFF' && atStart) then
      past keyAllowed false false
    else if c == '#' then past keyAllowed true false
    else (0, keyAllowed)

/-- Goes to the start of the next token. -/
def toToken (s : Scanner) : Scanner :=
  let (n, allowed) := leading s.inFlow s.keyAllowed false (s.cursor.column == 0) s.cursor.rest
  (s.allowKey allowed).skip n

/-- The tokens of what is left of a text, behind those scanned already. -/
def run : Nat → Scanner → Option (List Token)
  | 0, _ => none
  | fuel + 1, s => do
    let s ← s.toToken.expireAll
    let s := s.closeBlocks (· ≤ s.cursor.column)
    match s.cursor.rest with
    | [] => (s.closeBlocks fun _ => false).forget.map (·.tokens.reverse)
    | c :: r => run fuel (← s.token c r)

end Scanner

/-- The tokens of a text whose line breaks are unified. -/
def tokens? (s : Text) : Option (List Token) :=
  Scanner.run (s.length + 1) { cursor := { rest := s } }

end Yaml

end Tagtext
