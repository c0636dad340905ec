import Tagtext.Binary64
import Tagtext.Text.Digits

/-!
# YAML values

Settings and stored templates are written in YAML.  A value is a scalar, a
sequence or a mapping.  A scalar keeps its text and whether it stood without
quotes: only such a plain scalar can be anything but a string, and what it is
depends on its spelling (`Yaml.isString`).
-/

namespace Tagtext

/-- A YAML value.  Mappings keep their entries in order, repeated keys included. -/
inductive Yaml where
  | scalar (text : Text) (plain : Bool)
  | sequence (items : List Yaml)
  | mapping (entries : List (Yaml × Yaml))
  deriving Repr, Inhabited

namespace Yaml

/-- What stands where nothing is written. -/
def nothing : Yaml := scalar [] true

/-! ## Spellings of plain scalars -/

/-- The spellings of null. -/
def spellsNull (t : Text) : Bool :=
  t.isEmpty || ["~", "null", "Null", "NULL"].any (·.toList == t)

/-- The spellings of the truth values. -/
def spellsBool (t : Text) : Bool :=
  ["true", "True", "TRUE", "false", "False", "FALSE"].any (·.toList == t)

/-- Whether a digit string starts with a zero that does not stand alone. -/
def hasLeadingZero (t : Text) : Bool :=
  match dropSign t with
  | '0' :: c :: r => (c :: r).all Char.isDigit
  | _ => false

/-- The natural number that a text without sign spells, in base ten or with the mark of another. -/
def magnitude? (t : Text) : Option Nat :=
  match t with
  | '0' :: 'x' :: r => digitsIn? 16 r
  | '0' :: 'o' :: r => digitsIn? 8 r
  | '0' :: 'b' :: r => digitsIn? 2 r
  | _ => if hasLeadingZero t then none else digitsIn? 10 t

/-- The natural number that a plain scalar spells, a plus sign allowed. -/
def natural? (t : Text) : Option Nat :=
  match t with
  | '+' :: r => magnitude? r
  | _ => magnitude? t

/-- The integer that a plain scalar spells; it needs no more than 128 bits. -/
def integer? (t : Text) : Option Int :=
  match t with
  | '-' :: r =>
    ((magnitude? r).filter (· ≤ 0x80000000000000000000000000000000)).map fun n => -(n : Int)
  | _ => ((natural? t).filter (· < 0x100000000000000000000000000000000)).map fun n => (n : Int)

/-- The spellings of numbers of double precision, infinity and no number among them. -/
def spellsFloat (t : Text) : Bool :=
  let u := dropSign t
  if [".inf", ".Inf", ".INF"].any (·.toList == u) then true
  else if [".nan", ".NaN", ".NAN"].any (·.toList == t) then true
  else !hasLeadingZero t && (fractional? u).any fun (d, e) => Binary64.roundsToFinite d e

/-- Whether a scalar is a string: a quoted one always, a plain one if it spells nothing else. -/
def isString (text : Text) (plain : Bool) : Bool :=
  !plain ||
    !(spellsNull text || spellsBool text || (integer? text).isSome || spellsFloat text)

/-- Whether a scalar is an integer that fits 64 bits neither with nor without a sign. -/
def isWide (text : Text) (plain : Bool) : Bool :=
  plain && (integer? text).any fun n => n < -0x8000000000000000 || 0x10000000000000000 ≤ n

/-! ## Views -/

/-- The text of a scalar, whatever it spells. -/
def scalarText? : Yaml → Option Text
  | scalar t _ => some t
  | _ => none

/-- The text of a string. -/
def string? : Yaml → Option Text
  | scalar t plain => if isString t plain then some t else none
  | _ => none

/-- Whether a value is null. -/
def isNull : Yaml → Bool
  | scalar t plain => plain && spellsNull t
  | _ => false

/-- The natural number of 64 bits that a plain scalar spells. -/
def natural64? : Yaml → Option Nat
  | scalar t true => (natural? t).filter (· < 0x10000000000000000)
  | _ => none

/-- The items of a sequence. -/
def items? : Yaml → Option (List Yaml)
  | sequence xs => some xs
  | _ => none

/-- The entries of a mapping whose keys are all scalars; where nothing is written there are none. -/
def entries? : Yaml → Option (List (Text × Yaml))
  | mapping es => es.mapM fun (k, v) => k.scalarText?.map (·, v)
  | scalar [] true => some []
  | _ => none

/-- The items of a sequence; where nothing is written there are none. -/
def listed? : Yaml → Option (List Yaml)
  | sequence xs => some xs
  | scalar [] true => some []
  | _ => none

/-- The values of a key, in order. -/
def valuesOf (key : Text) (entries : List (Text × Yaml)) : List Yaml :=
  (entries.filter (·.1 == key)).map (·.2)

/-! ## Bounds -/

mutual

/-- How many sequences and mappings stand inside each other. -/
def depth : Yaml → Nat
  | scalar _ _ => 0
  | sequence xs => depthOfItems xs + 1
  | mapping es => depthOfEntries es + 1

/-- The greatest depth among some items. -/
def depthOfItems : List Yaml → Nat
  | [] => 0
  | v :: rest => max v.depth (depthOfItems rest)

/-- The greatest depth among some entries. -/
def depthOfEntries : List (Yaml × Yaml) → Nat
  | [] => 0
  | (k, v) :: rest => max (max k.depth v.depth) (depthOfEntries rest)

end

mutual

/-- Whether all integers in a value fit 64 bits. -/
def isNarrow : Yaml → Bool
  | scalar t plain => !isWide t plain
  | sequence xs => areNarrow xs
  | mapping es => entriesNarrow es

/-- Whether all integers in some items fit 64 bits. -/
def areNarrow : List Yaml → Bool
  | [] => true
  | v :: rest => v.isNarrow && areNarrow rest

/-- Whether all integers in some entries fit 64 bits. -/
def entriesNarrow : List (Yaml × Yaml) → Bool
  | [] => true
  | (k, v) :: rest => k.isNarrow && v.isNarrow && entriesNarrow rest

end

end Yaml

end Tagtext
