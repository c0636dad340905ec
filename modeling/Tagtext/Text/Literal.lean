import Tagtext.Text
import Tagtext.Text.FormlessTable

/-!
# Literals

A literal shows a text between double quotes so that every character can be
told: quotes and backslashes stand behind a backslash, and a character without a
form of its own is spelt by its code point.
-/

namespace Tagtext

/-- A character inside a literal. -/
def literalChar (c : Char) : Text :=
  if c = '"' ∨ c = '\\' then ['\\', c]
  else if c = '\n' then ['\\', 'n']
  else if c = '\r' then ['\\', 'r']
  else if c = '\t' then ['\\', 't']
  else if c = '\x00' then ['\\', '0']
  else if inRanges formlessRanges c then
    "\\u\x7b".toList ++ Nat.toDigits 16 c.toNat ++ ['\x7d']
  else [c]

/-- The literal of a text. -/
def literal (t : Text) : Text := '"' :: t.flatMap literalChar ++ ['"']

end Tagtext
