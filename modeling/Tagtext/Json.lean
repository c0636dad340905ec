import Tagtext.Binary64
import Tagtext.Dictionary

/-!
# JSON values

Context entries, template models and the machine-readable listing are JSON.
A number is an integer of 64 bits, signed or not, or a double.  Objects built
with `Json.ofEntries` keep their members in increasing order of their names.
-/

namespace Tagtext

/-- A JSON number: an integer from -2^63 to 2^64 - 1, or a double. -/
inductive Number where
  | int (n : Int)
  | float (x : Binary64)
  deriving DecidableEq, Repr

/-- A JSON value. -/
inductive Json where
  | null
  | bool (b : Bool)
  | number (n : Number)
  | string (s : Text)
  | array (items : List Json)
  | object (members : List (Text × Json))
  deriving Repr, Inhabited

namespace Json

/-- The integer `n`. -/
def int (n : Int) : Json := number (.int n)

/-- The natural number `n`. -/
def nat (n : Nat) : Json := int n

/-- A text, or null for none. -/
def ofText? : Option Text → Json
  | some t => string t
  | none => null

/-- An array of texts. -/
def texts (ts : List Text) : Json := array (ts.map string)

/-- The object with these members, the last of each name, in the order of their names. -/
def ofEntries (entries : List (Text × Json)) : Json := object (Dictionary.ofList entries)

/-- The member of an object with this name. -/
def member? (name : Text) : Json → Option Json
  | object members => Dictionary.get? members name
  | _ => none

/-- The text that a string holds. -/
def text? : Json → Option Text
  | string s => some s
  | _ => none

/-- The items of an array. -/
def items? : Json → Option (List Json)
  | array xs => some xs
  | _ => none

/-- The truth value that a boolean holds. -/
def bool? : Json → Option Bool
  | bool b => some b
  | _ => none

/-- The integer that a number holds. -/
def int? : Json → Option Int
  | number (.int n) => some n
  | _ => none

/-- The integer that a number holds, if it lies from `low` to `high`. -/
def intBetween? (low high : Int) (v : Json) : Option Int :=
  v.int?.filter fun n => low ≤ n && n ≤ high

/-- The signed integer of 64 bits that a number holds. -/
def int64? (v : Json) : Option Int :=
  v.intBetween? (-0x8000000000000000) 0x7FFFFFFFFFFFFFFF

/-- The texts that an array of strings holds. -/
def texts? (v : Json) : Option (List Text) := v.items?.bind (·.mapM text?)

end Json

end Tagtext
