import Tagtext.Binary64

/-!
# Doubles in decimal

A finite double is written with the fewest digits that read back as the same
double (`shortest`): the coarsest power of ten with a multiple among the reals
that round to it.  What is left open, a `Spelling` decides: which of two
multiples just as near is taken, and when and how an exponent is written.
-/

namespace Tagtext

/-- Which of two decimals is taken that are just as near. -/
inductive TieRule where
  /-- The one whose last digit is even. -/
  | even
  /-- The greater one. -/
  | up
  deriving DecidableEq, Repr

/-- How finite doubles are written. -/
structure Spelling where
  ties : TieRule
  /-- How many zeros between the point and the first digit bring an exponent, if any number does. -/
  zeros : Option Nat
  /-- How many digits in front of the point are the most without an exponent, if there is a most. -/
  places : Option Nat
  /-- Whether an exponent that is not negative has a plus sign. -/
  plus : Bool
  deriving DecidableEq, Repr

namespace Spelling

/-- In JSON an exponent comes below `10 ^ -5` and from `10 ^ 16` on. -/
def json : Spelling := ⟨.even, some 5, some 16, true⟩

/-- Inside a list that is shown an exponent comes below `10 ^ -4` and from `10 ^ 16` on. -/
def item : Spelling := ⟨.up, some 4, some 16, false⟩

/-- In running text no exponent comes. -/
def plain : Spelling := ⟨.up, none, none, false⟩

end Spelling

namespace Binary64

/-- The multiple of `10 ^ e` nearest to the magnitude, where `e = i - 324`, if it is not zero and
rounds to `x`.  All quantities are in units of `2 ^ (scale - 1077)`, as fractions over `10 ^ 324`
and `2 ^ 1077`. -/
def nearestMultiple? (ties : TieRule) (x : Binary64) (i : Nat) : Option Nat :=
  let m := x.significand
  let unit := Nat.pow 2 x.scale * Nat.pow 10 324
  let value := 4 * m * unit
  let low := (if m = 0x10000000000000 ∧ 1 < x.scale then 4 * m - 1 else 4 * m - 2) * unit
  let high := (4 * m + 2) * unit
  let grid := Nat.pow 10 i * Nat.pow 2 1077
  let inside := fun d =>
    0 < d && (if m % 2 = 0 then low ≤ d * grid && d * grid ≤ high
      else low < d * grid && d * grid < high)
  let below := value / grid
  let above := below + 1
  match inside below, inside above with
  | false, false => none
  | true, false => some below
  | false, true => some above
  | true, true =>
    if 2 * value < (below + above) * grid then some below
    else if (below + above) * grid < 2 * value then some above
    else
      match ties with
      | .even => some (if below % 2 = 0 then below else above)
      | .up => some above

/-- The digits and the exponent of ten of the shortest decimal, tried from `10 ^ (i - 324)` down. -/
def shortestFrom (ties : TieRule) (x : Binary64) : Nat → Nat × Int
  | 0 => ((x.nearestMultiple? ties 0).getD 0, -324)
  | i + 1 =>
    match x.nearestMultiple? ties (i + 1) with
    | some d => (d, (i + 1 : Nat) - 324)
    | none => x.shortestFrom ties i

/-- The fewest digits `d` and the exponent `e` such that `d * 10 ^ e` rounds to the magnitude. -/
def shortest (ties : TieRule) (x : Binary64) : Nat × Int :=
  if x.significand = 0 then (0, 0) else x.shortestFrom ties 633

/-- Zeros. -/
def zeros (n : Nat) : Text := List.replicate n '0'

/-- A magnitude in positional notation, with at least one digit on either side of the point. -/
def positional (d : Nat) (e : Int) : Text :=
  let digits := decimal d
  let point := digits.length + e
  if 0 ≤ e then digits ++ zeros e.toNat ++ ".0".toList
  else if 0 < point then
    digits.take point.toNat ++ '.' :: digits.drop point.toNat
  else "0.".toList ++ zeros (-point).toNat ++ digits

/-- A magnitude with one digit in front of the point and an exponent of ten. -/
def scientific (plus : Bool) (d : Nat) (e : Int) : Text :=
  let digits := decimal d
  let power := digits.length + e - 1
  let tail := 'e' :: (if plus ∧ 0 ≤ power then ['+'] else []) ++ signedDecimal power
  match digits with
  | [c] => c :: tail
  | c :: r => c :: '.' :: r ++ tail
  | [] => tail

/-- The minus sign of a negative number. -/
def sign (x : Binary64) : Text := if x.isNegative then ['-'] else []

/-- A number as a spelling writes it; what is not finite has a name. -/
def toText (how : Spelling) (x : Binary64) : Text :=
  if x.isNaN then "NaN".toList
  else if !x.isFinite then x.sign ++ "inf".toList
  else
    let (d, e) := x.shortest how.ties
    let point := (decimal d).length + e
    if d = 0 then x.sign ++ "0.0".toList
    else if how.zeros.any (point ≤ -·) || how.places.any (· < point) then
      x.sign ++ scientific how.plus d e
    else x.sign ++ positional d e

end Binary64

end Tagtext
