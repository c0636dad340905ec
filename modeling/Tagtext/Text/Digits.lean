import Tagtext.Text

/-!
# Digits

Numbers spelt in a base up to sixteen, letters standing for the digits from ten
on in either case; and decimal numbers with a point or an exponent of ten.
-/

namespace Tagtext

/-- The value of a digit up to `f`. -/
def digitValue? (c : Char) : Option Nat :=
  if c.isDigit then some (c.toNat - 48)
  else if 'a' ≤ c ∧ c ≤ 'f' then some (c.toNat - 87)
  else if 'A' ≤ c ∧ c ≤ 'F' then some (c.toNat - 55)
  else none

/-- The number that digits spell in a base; what is no digit counts as zero. -/
def valueIn (base : Nat) (t : Text) : Nat :=
  t.foldl (fun n c => n * base + (digitValue? c).getD 0) 0

/-- The number that a text spells in a base, if it is made of digits of that base. -/
def digitsIn? (base : Nat) (t : Text) : Option Nat :=
  if !t.isEmpty && t.all (fun c => (digitValue? c).any (· < base)) then some (valueIn base t)
  else none

/-- The natural number that decimal digits spell, a plus sign allowed in front. -/
def unsigned? : Text → Option Nat
  | '+' :: r => digitsIn? 10 r
  | t => digitsIn? 10 t

/-- Drops one sign at the start. -/
def dropSign : Text → Text
  | '+' :: r => r
  | '-' :: r => r
  | t => t

/-- The exponent of ten that a text spells; nothing spells zero. -/
def exponent? : Text → Option Int
  | [] => some 0
  | c :: r =>
    if c == 'e' || c == 'E' then
      (digitsIn? 10 (dropSign r)).map fun n => if r.head? == some '-' then -(n : Int) else n
    else none

/-- The decimal number without sign that a text spells: its digits and their exponent of ten. -/
def fractional? (t : Text) : Option (Nat × Int) :=
  let (whole, r) := t.span Char.isDigit
  let (part, r) :=
    match r with
    | '.' :: r => r.span Char.isDigit
    | _ => ([], r)
  if whole.isEmpty && part.isEmpty then none
  else (exponent? r).map fun e => (valueIn 10 (whole ++ part), e - part.length)

end Tagtext
