import Tagtext.Text

/-!
# Faults in a document's markup

No fault stops the reading of a document: the span at fault is kept as it is
written and the fault is reported.  Offsets are byte offsets into the document.
-/

namespace Tagtext

/-- A malformed or unbalanced piece of markup. -/
inductive ParseError where
  /-- A tag whose closing bracket is missing. -/
  | unterminatedTag (offset : Nat)
  /-- A quoted value whose closing quote is missing. -/
  | unterminatedQuote (offset : Nat)
  /-- An unquoted opening bracket inside a tag. -/
  | unexpectedBracket (offset : Nat)
  /-- A tag whose first word is no name. -/
  | invalidTagName (name : Text) (offset : Nat)
  /-- A closing tag with something other than its name in it. -/
  | invalidCloseTag (raw : Text) (offset : Nat)
  /-- An equals sign with no name in front of it. -/
  | emptyArgumentName (offset : Nat)
  /-- An opening tag that no closing tag matches. -/
  | unclosedTag (name : Text) (offset : Nat)
  /-- A pair of tags inside too many other pairs. -/
  | nestingTooDeep (name : Text) (offset limit : Nat)
  deriving DecidableEq, Repr

namespace ParseError

/-- Where in the document the fault was found. -/
def offset : ParseError → Nat
  | unterminatedTag o | unterminatedQuote o | unexpectedBracket o | invalidTagName _ o
  | invalidCloseTag _ o | emptyArgumentName o | unclosedTag _ o | nestingTooDeep _ o _ => o

/-- The same fault in a document with `n` more bytes in front. -/
def shift (n : Nat) : ParseError → ParseError
  | unterminatedTag o => unterminatedTag (n + o)
  | unterminatedQuote o => unterminatedQuote (n + o)
  | unexpectedBracket o => unexpectedBracket (n + o)
  | invalidTagName name o => invalidTagName name (n + o)
  | invalidCloseTag raw o => invalidCloseTag raw (n + o)
  | emptyArgumentName o => emptyArgumentName (n + o)
  | unclosedTag name o => unclosedTag name (n + o)
  | nestingTooDeep name o limit => nestingTooDeep name (n + o) limit

/-- The words that report the fault. -/
def message : ParseError → Text
  | unterminatedTag o => "unterminated tag starting at byte ".toList ++ decimal o
  | unterminatedQuote o => "unterminated quoted value starting at byte ".toList ++ decimal o
  | unexpectedBracket o => "unexpected '[' inside tag at byte ".toList ++ decimal o
  | invalidTagName name o =>
    "invalid tag name '".toList ++ name ++ "' at byte ".toList ++ decimal o
  | invalidCloseTag raw o =>
    "invalid closing tag '".toList ++ raw ++ "' at byte ".toList ++ decimal o
  | emptyArgumentName o => "argument without a name in tag at byte ".toList ++ decimal o
  | unclosedTag name o =>
    "tag '".toList ++ name ++ "' at byte ".toList ++ decimal o ++ " is never closed".toList
  | nestingTooDeep name o limit =>
    "tag '".toList ++ name ++ "' at byte ".toList ++ decimal o ++
      " exceeds the nesting limit of ".toList ++ decimal limit

/-! ## Lemmas -/

@[simp] theorem offset_shift (n : Nat) (e : ParseError) : (e.shift n).offset = n + e.offset := by
  cases e <;> rfl

end ParseError

end Tagtext
