import Tagtext.Text

/-!
# Numbers of double precision

A `Binary64` is the 64 bits of a double: a sign, an exponent of eleven bits and
a fraction of fifty-two.  Decimals become doubles in two ways: rounded once, to
the nearest one (`ofScientific`), or rounded at each of a few steps
(`ofDecimal?`).
-/

namespace Tagtext

/-- The bits of a number of double precision. -/
structure Binary64 where
  bits : UInt64
  deriving DecidableEq, Repr

namespace Binary64

/-- The bits of a machine number. -/
def ofFloat (x : Float) : Binary64 := ⟨x.toBits⟩

/-- The machine number with these bits. -/
def toFloat (x : Binary64) : Float := Float.ofBits x.bits

/-- Whether the sign bit is set. -/
def isNegative (x : Binary64) : Bool := 0x8000000000000000 ≤ x.bits.toNat

/-- The eleven bits of the exponent. -/
def exponentField (x : Binary64) : Nat := x.bits.toNat / 0x10000000000000 % 0x800

/-- The fifty-two bits of the fraction. -/
def fraction (x : Binary64) : Nat := x.bits.toNat % 0x10000000000000

/-- Neither infinite nor undefined. -/
def isFinite (x : Binary64) : Bool := x.exponentField != 2047

/-- An undefined result. -/
def isNaN (x : Binary64) : Bool := x.exponentField == 2047 && x.fraction != 0

/-- A finite number's magnitude is `significand * 2 ^ (scale - 1075)`. -/
def significand (x : Binary64) : Nat :=
  if x.exponentField = 0 then x.fraction else 0x10000000000000 + x.fraction

/-- The exponent of two, counted from -1075. -/
def scale (x : Binary64) : Nat := if x.exponentField = 0 then 1 else x.exponentField

/-- The number that a significand and an exponent of ten spell: the significand as a double, times
or divided by one power of ten, in steps of `10 ^ 308` below that.  `none` if it is too large. -/
def ofDecimal? (negative : Bool) (significand : Nat) (exponent : Int) : Option Binary64 :=
  let power (n : Nat) : Float := Float.ofScientific 1 false n
  let start := Float.ofScientific significand false 0
  let magnitude? : Option Float :=
    if 0 ≤ exponent then
      if 308 < exponent then (if start == 0.0 then some start else none)
      else
        let x := start * power exponent.toNat
        if x.isInf then none else some x
    else
      let down := (-exponent).toNat
      if down ≤ 308 then some (start / power down)
      else
        let x := start / power 308
        if x == 0.0 then some x
        else if down ≤ 616 then some (x / power (down - 308))
        else some 0.0
  magnitude?.map fun x => ofFloat (if negative then -x else x)

/-- The number nearest to `d * 10 ^ e`. -/
def ofScientific (d : Nat) (e : Int) : Binary64 :=
  let size := (decimal d).length + e
  if d = 0 ∨ size < -400 then ofFloat 0.0
  else if 400 < size then ofFloat (1.0 / 0.0)
  else ofFloat (Float.ofScientific d (e < 0) e.natAbs)

/-- The number nearest to an integer. -/
def ofInt (n : Int) : Binary64 :=
  let x := Float.ofScientific n.natAbs false 0
  ofFloat (if n < 0 then -x else x)

/-- The magnitude of a finite number without what is behind the point. -/
def magnitude (x : Binary64) : Nat :=
  if 1075 ≤ x.scale then x.significand * Nat.pow 2 (x.scale - 1075)
  else x.significand / Nat.pow 2 (1075 - x.scale)

/-- A finite number without what is behind the point. -/
def truncated (x : Binary64) : Int := if x.isNegative then -(x.magnitude : Int) else x.magnitude

/-- The integer that a number is, if it is one. -/
def int? (x : Binary64) : Option Int :=
  if x.isFinite && x.significand * Nat.pow 2 x.scale == x.magnitude * Nat.pow 2 1075 then
    some x.truncated
  else none

/-- Whether `d * 10 ^ e` rounds to a finite number: it is nearer to the greatest one than to the
next power of two. -/
def roundsToFinite (d : Nat) (e : Int) : Bool :=
  let limit := (Nat.pow 2 54 - 1) * Nat.pow 2 970
  if d = 0 then true
  else if 0 ≤ e then e ≤ 308 && d * Nat.pow 10 e.toNat < limit
  else
    let down := (-e).toNat
    (decimal d).length ≤ down || d < limit * Nat.pow 10 down

end Binary64

end Tagtext
