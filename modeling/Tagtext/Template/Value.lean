import Tagtext.Binary64.Spelling
import Tagtext.Json
import Tagtext.Text.Literal

/-!
# Values in templates

What an expression of a template stands for: something undefined, JSON, or one
of the things that only templates have, such as the state of a loop.

Integers are held in 64 or 128 bits and never wrap, with one exception: two that
take all 128 bits without a sign are added by their remainders around zero.  An
integer and a machine number are equal if they are the same number, with the
integers at the end of a range standing for all beyond it.
-/

namespace Tagtext

namespace Template

/-- How an integer is held: the bits, of which one may be the sign. -/
inductive Width where
  | signed64
  | unsigned64
  | signed128
  | unsigned128
  deriving DecidableEq, Repr

/-- The functions that every template can call. -/
inductive Function where
  | range
  | mapping
  | record
  | report
  deriving DecidableEq, Repr

/-- A value. -/
inductive Value where
  | undefined
  | null
  | bool (b : Bool)
  | whole (width : Width) (n : Int)
  | float (x : Binary64)
  | text (t : Text)
  | list (items : List Value)
  | map (members : List (Text × Value))
  /-- How far a loop has come: `index` of its items are behind the one it is at.  How many there are
  is told only if they are `counted`. -/
  | loop (index : Nat) (items : List Value) (counted : Bool)
  | function (f : Function)
  deriving Repr, Inhabited

/-- The name of a function. -/
def Function.name : Function → Text
  | range => "range".toList
  | mapping => "dict".toList
  | record => "namespace".toList
  | report => "debug".toList

namespace Width

/-- The least integer of a width. -/
def low : Width → Int
  | signed64 => -0x8000000000000000
  | signed128 => -0x80000000000000000000000000000000
  | unsigned64 | unsigned128 => 0

/-- The greatest integer of a width. -/
def high : Width → Int
  | signed64 => 0x7FFFFFFFFFFFFFFF
  | unsigned64 => 0xFFFFFFFFFFFFFFFF
  | signed128 => 0x7FFFFFFFFFFFFFFFFFFFFFFFFFFFFFFF
  | unsigned128 => 0xFFFFFFFFFFFFFFFFFFFFFFFFFFFFFFFF

/-- Whether a width holds an integer. -/
def holds (w : Width) (n : Int) : Bool := w.low ≤ n && n ≤ w.high

/-- The integer of a width nearest to an integer. -/
def clamp (w : Width) (n : Int) : Int := max w.low (min w.high n)

end Width

namespace Value

/-- A natural number below 2^128. -/
def nat (n : Nat) : Value :=
  whole (if Width.unsigned64.holds n then .unsigned64 else .unsigned128) n

/-- The result of a calculation. -/
def result (n : Int) : Value := whole (if Width.signed64.holds n then .signed64 else .signed128) n

mutual

/-- The value that JSON stands for. -/
def ofJson : Json → Value
  | .null => null
  | .bool b => bool b
  | .number (.int n) => whole (if n < 0 then .signed64 else .unsigned64) n
  | .number (.float x) => float x
  | .string t => text t
  | .array items => list (ofItems items)
  | .object members => map (ofMembers members)

/-- The values of the items of an array. -/
def ofItems : List Json → List Value
  | [] => []
  | v :: rest => ofJson v :: ofItems rest

/-- The values of the members of an object, with their names. -/
def ofMembers : List (Text × Json) → List (Text × Value)
  | [] => []
  | (k, v) :: rest => (k, ofJson v) :: ofMembers rest

end

/-! ## Text -/

/-- A truth value in running text. -/
def showBool (b : Bool) : Text := if b then "True".toList else "False".toList

mutual

/-- A value inside a list or a mapping. -/
def showInside : Value → Text
  | undefined => "undefined".toList
  | null => "None".toList
  | bool b => showBool b
  | whole _ n => signedDecimal n
  | float x => x.toText .item
  | text t => literal t
  | list items => '[' :: joinWith ", ".toList (showItems items) ++ [']']
  | map members => '\x7b' :: joinWith ", ".toList (showMembers members) ++ ['\x7d']
  | loop index items counted =>
    "<loop ".toList ++ decimal index ++ (if counted then '/' :: decimal items.length else []) ++ ['>']
  | function f => f.name

/-- The items of a list. -/
def showItems : List Value → List Text
  | [] => []
  | v :: rest => showInside v :: showItems rest

/-- The members of a mapping. -/
def showMembers : List (Text × Value) → List Text
  | [] => []
  | (k, v) :: rest => (literal k ++ ": ".toList ++ showInside v) :: showMembers rest

end

/-- A value as it is put out. -/
def display : Value → Text
  | undefined => []
  | text t => t
  | float x => x.toText .plain
  | v => showInside v

/-! ## Parts -/

/-- What the state of a loop tells. -/
def loopMembers (index : Nat) (items : List Value) (counted : Bool) : Dictionary Value :=
  let length := items.length
  let count (n : Nat) := if counted then nat n else undefined
  .ofList <|
    [("index", nat (index + 1)), ("index0", nat index), ("revindex", count (length - index)),
     ("revindex0", count (length - index - 1)), ("first", bool (index == 0)),
     ("last", bool (counted && index + 1 == length)), ("length", count length), ("depth", nat 1),
     ("depth0", nat 0), ("nextitem", items.getD (index + 1) undefined),
     ("previtem", if index = 0 then undefined else items.getD (index - 1) undefined)].map
      fun ((k, v) : String × Value) => (k.toList, v)

/-- The items of a list, or the keys of a mapping. -/
def parts? : Value → Option (List Value)
  | list items => some items
  | map members => some (members.map fun (k, _) => text k)
  | loop index items counted => some ((loopMembers index items counted).map fun (k, _) => text k)
  | _ => none

/-- The items that a loop over a value visits: its parts, the characters of a text, nothing if it is
null or undefined. -/
def visit? : Value → Option (List Value)
  | undefined | null => some []
  | text t => some (t.map fun c => text [c])
  | v => v.parts?

/-- Whether a loop can tell beforehand how many items it visits: not for the characters of a text. -/
def isCounted : Value → Bool
  | text _ => false
  | _ => true

/-- The length of a text, a list or a mapping. -/
def length? : Value → Option Nat
  | text t => some t.length
  | v => v.parts?.map (·.length)

/-- Whether a value counts as true. -/
def truth : Value → Bool
  | undefined | null => false
  | bool b => b
  | whole _ n => n != 0
  | float x => x.toFloat != 0.0
  | text t => !t.isEmpty
  | list items => !items.isEmpty
  | map members => !members.isEmpty
  | loop _ _ _ | function _ => true

/-! ## Numbers -/

/-- The integer that a value stands for; a truth value stands for one or zero. -/
def int? : Value → Option Int
  | bool b => some (if b then 1 else 0)
  | whole _ n => some n
  | _ => none

/-- The integer that a value stands for where only integers are of use: a machine number does if
nothing is behind its point. -/
def index? : Value → Option Int
  | float x => x.int?
  | v => v.int?

/-- The machine number nearest to what a value stands for. -/
def float? : Value → Option Binary64
  | float x => some x
  | v => v.int?.map .ofInt

/-- Whether a value is a machine number. -/
def isFloat : Value → Bool
  | float _ => true
  | _ => false

/-- Whether a machine number stands for the same as a value: from it the value is found again, as
the integer of its width nearest to the machine number. -/
def isExact : Value → Bool
  | whole w n => w.clamp (Binary64.ofInt n).truncated == n
  | _ => true

/-- Two integers in 128 bits with a sign. -/
def ints? (a b : Value) : Option (Int × Int) :=
  match a, b with
  | whole .unsigned128 m, whole .unsigned128 n =>
    let size := 0x100000000000000000000000000000000
    some (m.bmod size, n.bmod size)
  | _, _ => do
    let m ← a.int?.filter Width.signed128.holds
    let n ← b.int?.filter Width.signed128.holds
    some (m, n)

/-- Whether two numbers or truth values are equal. -/
def equalNumbers (a b : Value) : Bool :=
  if a.isFloat || b.isFloat then
    match a.float?, b.float? with
    | some x, some y => x.toFloat == y.toFloat && a.isExact && b.isExact
    | _, _ => false
  else
    match ints? a b with
    | some (m, n) => m == n
    | none => false

mutual

/-- Whether two values are equal; numbers and truth values are compared by what they stand for. -/
def equal : Value → Value → Bool
  | undefined, undefined => true
  | null, null => true
  | text s, text t => s == t
  | list xs, list ys => equalItems xs ys
  | map xs, map ys => equalMembers xs ys
  | loop i xs _, loop j ys _ => i == j && equalItems xs ys
  | function f, function g => f == g
  | a, b => equalNumbers a b

/-- Whether two lists have equal items. -/
def equalItems : List Value → List Value → Bool
  | [], [] => true
  | x :: xs, y :: ys => equal x y && equalItems xs ys
  | _, _ => false

/-- Whether two mappings have equal members. -/
def equalMembers : List (Text × Value) → List (Text × Value) → Bool
  | [], [] => true
  | (j, x) :: xs, (k, y) :: ys => j == k && equal x y && equalMembers xs ys
  | _, _ => false

end

/-- The sum of two numbers, or two texts or lists one after the other. -/
def sum? (a b : Value) : Option Value :=
  match a, b with
  | text s, text t => some (text (s ++ t))
  | list xs, list ys => some (list (xs ++ ys))
  | _, _ =>
    if a.isFloat || b.isFloat then do
      let x ← a.float?
      let y ← b.float?
      some (float (.ofFloat (x.toFloat + y.toFloat)))
    else do
      let (m, n) ← ints? a b
      if Width.signed128.holds (m + n) then some (result (m + n)) else none

/-- A number with the other sign; `2 ^ 127`, the first that is too great for 128 bits with a sign,
stays as it is. -/
def negative? : Value → Option Value
  | float x => some (float (.ofFloat (-x.toFloat)))
  | whole w n =>
    if n = -Width.signed128.low then some (whole w n)
    else if Width.signed128.holds n && Width.signed128.holds (-n) then some (result (-n))
    else none
  | _ => none

/-! ## Items -/

/-- The item at an index, counted from the end if it is negative. -/
def at? {α : Type} (items : List α) (index : Int) : Option α :=
  if 0 ≤ index then items[index.toNat]?
  else if items.length < index.natAbs then none
  else items[items.length - index.natAbs]?

/-- The member of a mapping, the item of a list or the character of a text under a key. -/
def item? (v key : Value) : Option Value :=
  match v, key with
  | map members, text k => Dictionary.get? members k
  | loop index items counted, text k => (loopMembers index items counted).get? k
  | list items, _ => key.index?.bind (at? items)
  | text t, _ => (key.index?.bind (at? t)).map fun c => text [c]
  | _, _ => none

end Value

end Template

end Tagtext
