import Tagtext.Text
import Tagtext.Text.CaseTable

/-!
# Upper and lower case

`toUpper` and `toLower` map every character of a text as Unicode says, without
regard to a language.  One character may become several, and a capital sigma at
the end of a word becomes a final one.
-/

namespace Tagtext

/-- A character moved by the row that holds it. -/
def shiftByRow (rows : List (Nat × Nat × Nat × Int)) (c : Char) : Char :=
  match rows.find? fun (first, last, stride, _) =>
      first ≤ c.toNat && c.toNat ≤ last && (c.toNat - first) % stride == 0 with
  | some (_, _, _, shift) => Char.ofNat (c.toNat + shift).toNat
  | none => c

/-- What a character becomes under a case mapping. -/
def mapCase (sequences : List (Nat × List Nat)) (rows : List (Nat × Nat × Nat × Int)) (c : Char) :
    Text :=
  match sequences.lookup c.toNat with
  | some codes => codes.map Char.ofNat
  | none => [shiftByRow rows c]

/-- A text in upper case. -/
def toUpper (t : Text) : Text := t.flatMap (mapCase upperSequences upperRows)

/-- Whether a text starts with a cased character, case-ignorable ones not counted. -/
def startsCased (t : Text) : Bool :=
  match t.dropWhile (inRanges ignorableRanges) with
  | c :: _ => inRanges casedRanges c
  | [] => false

/-- The lower case of a character between two texts, the first of them reversed. -/
def lowerBetween (before : Text) (c : Char) (after : Text) : Text :=
  if c = 'Σ' then [if startsCased before && !startsCased after then 'ς' else 'σ']
  else mapCase lowerSequences lowerRows c

/-- The lower case of a text that follows another one, reversed. -/
def lowerAfter (before : Text) : Text → Text
  | [] => []
  | c :: r => lowerBetween before c r ++ lowerAfter (c :: before) r

/-- A text in lower case. -/
def toLower (t : Text) : Text := lowerAfter [] t

end Tagtext
