import Tagtext.Template.Token

/-!
# Pieces of a template

A template is text with three kinds of insertions: `{{ ... }}` puts out a value,
`{% ... %}` is a statement, and `{# ... #}` a comment.  A hyphen at the inner
side of a delimiter takes away the blanks beside it.  One line break at the end
of a template does not count.
-/

namespace Tagtext

namespace Template

/-- A piece of a template. -/
inductive Piece where
  | text (text : Text)
  | output (tokens : List Token)
  | statement (tokens : List Token)
  deriving DecidableEq, Repr

/-- Splits a text in front of the first opening delimiter. -/
def splitAtDelimiter : Text → Text × Text
  | '\x7b' :: k :: r =>
    if k = '\x7b' ∨ k = '%' ∨ k = '#' then ([], '\x7b' :: k :: r)
    else
      let (before, rest) := splitAtDelimiter (k :: r)
      ('\x7b' :: before, rest)
  | c :: r =>
    let (before, rest) := splitAtDelimiter r
    (c :: before, rest)
  | [] => ([], [])

/-- Splits the text of a comment from what follows its closing delimiter. -/
def splitComment : Text → Option (Text × Text)
  | '#' :: '\x7d' :: r => some ([], r)
  | c :: r => (splitComment r).map fun (t, rest) => (c :: t, rest)
  | [] => none

/-- A piece of text, unless it is empty. -/
def textPiece (t : Text) : List Piece := if t.isEmpty then [] else [.text t]

/-- The sign that may follow an opening delimiter. -/
def splitControl : Text → Bool × Text
  | '-' :: r => (true, r)
  | '+' :: r => (false, r)
  | s => (false, s)

/-- The pieces of a text; with `trims`, blanks at its start do not count. -/
def pieces : Nat → Bool → Text → Option (List Piece)
  | 0, _, _ => none
  | fuel + 1, trims, s =>
    let (lead, rest) := splitAtDelimiter (if trims then trimStart s else s)
    match rest with
    | _ :: kind :: r => do
      let (trimsLead, r) := splitControl r
      let lead := textPiece (if trimsLead then trimEnd lead else lead)
      if kind = '#' then
        let (comment, r) ← splitComment r
        let more ← pieces fuel (comment.getLast? == some '-') r
        some (lead ++ more)
      else
        let close := if kind = '%' then ['%', '\x7d'] else ['\x7d', '\x7d']
        let (tokens, trims, r) ← readTokens close (r.length + 1) r
        let more ← pieces fuel trims r
        some (lead ++ (if kind = '%' then .statement tokens else .output tokens) :: more)
    | _ => some (textPiece lead)

/-- Drops the last character if it is `c`. -/
def dropLastIf (c : Char) (s : Text) : Text := if s.getLast? = some c then s.dropLast else s

/-- The pieces of a whole template. -/
def cut (s : Text) : Option (List Piece) :=
  let s := dropLastIf '\r' (dropLastIf '\n' s)
  pieces (s.length + 1) false s

end Template

end Tagtext
