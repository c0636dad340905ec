import Tagtext.Binary64.Spelling
import Tagtext.Json

/-!
# Writing JSON

`Json.compact` writes a value without any space, `Json.pretty` with one member
or item a line, indented by two spaces a level.  Both write members in the order
in which the object holds them, and escape quotes, backslashes and the controls
below U+0020 only.
-/

namespace Tagtext

namespace Json

/-- A hexadecimal digit. -/
def hexDigit (n : Nat) : Char := Nat.digitChar n

/-- A character inside a JSON string. -/
def escapeChar (c : Char) : Text :=
  if c = '"' then ['\\', '"']
  else if c = '\\' then ['\\', '\\']
  else if c = '\x08' then ['\\', 'b']
  else if c = '\x0c' then ['\\', 'f']
  else if c = '\n' then ['\\', 'n']
  else if c = '\r' then ['\\', 'r']
  else if c = '\t' then ['\\', 't']
  else if c.toNat < 32 then
    ['\\', 'u', '0', '0', hexDigit (c.toNat / 16), hexDigit (c.toNat % 16)]
  else [c]

/-- A JSON string. -/
def quote (s : Text) : Text := '"' :: s.flatMap escapeChar ++ ['"']

/-- A JSON number. -/
def ofNumber : Number → Text
  | .int n => signedDecimal n
  | .float x => if x.isFinite then x.toText .json else "null".toList

/-- A boolean. -/
def ofBool (b : Bool) : Text := if b then "true".toList else "false".toList

mutual

/-- A value on one line without spaces. -/
def compact : Json → Text
  | null => "null".toList
  | bool b => ofBool b
  | number n => ofNumber n
  | string s => quote s
  | array items => '[' :: joinWith [','] (compactItems items) ++ [']']
  | object members => '\x7b' :: joinWith [','] (compactMembers members) ++ ['\x7d']

/-- The items of an array. -/
def compactItems : List Json → List Text
  | [] => []
  | v :: rest => compact v :: compactItems rest

/-- The members of an object. -/
def compactMembers : List (Text × Json) → List Text
  | [] => []
  | (k, v) :: rest => (quote k ++ ':' :: compact v) :: compactMembers rest

end

/-- A line break and the indentation of a level. -/
def newline (level : Nat) : Text := '\n' :: List.replicate (2 * level) ' '

mutual

/-- A value over several lines, at a level of indentation. -/
def prettyAt (level : Nat) : Json → Text
  | null => "null".toList
  | bool b => ofBool b
  | number n => ofNumber n
  | string s => quote s
  | array [] => "[]".toList
  | array (v :: rest) =>
    '[' :: joinWith [','] (prettyItems (level + 1) (v :: rest)) ++ newline level ++ [']']
  | object [] => ['\x7b', '\x7d']
  | object (m :: rest) =>
    '\x7b' :: joinWith [','] (prettyMembers (level + 1) (m :: rest)) ++ newline level ++ ['\x7d']

/-- The items of an array, each on a line of its own. -/
def prettyItems (level : Nat) : List Json → List Text
  | [] => []
  | v :: rest => (newline level ++ prettyAt level v) :: prettyItems level rest

/-- The members of an object, each on a line of its own. -/
def prettyMembers (level : Nat) : List (Text × Json) → List Text
  | [] => []
  | (k, v) :: rest =>
    (newline level ++ quote k ++ ": ".toList ++ prettyAt level v) :: prettyMembers level rest

end

/-- A value over several lines. -/
def pretty (v : Json) : Text := prettyAt 0 v

end Json

end Tagtext
