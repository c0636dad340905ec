import Tagtext.Json
import Tagtext.Json.Writer

/-!
# Contexts

A context is the bag of named values that the handlers of one document share:
one records a heading, a later one lists all headings.  Keys and shapes are a
convention between handlers.  Its view is `c.get? k`; each operation changes
what one key is bound to and nothing else:

    (c.insert k v).get? j = if j = k then some v else c.get? j      (get?_insert)
    (c.remove k).get? j = if j = k then none else c.get? j          (get?_remove)
-/

namespace Tagtext

/-- Named values shared by the handlers of one document. -/
structure Context where
  values : Dictionary Json
  deriving Repr, Inhabited

namespace Context

/-- The context without any value. -/
def empty : Context := ⟨[]⟩

/-- The value of a key. -/
def get? (c : Context) (key : Text) : Option Json := Dictionary.get? c.values key

/-- Binds a key to a value. -/
def insert (c : Context) (key : Text) (value : Json) : Context :=
  ⟨Dictionary.insert key value c.values⟩

/-- Takes a key away. -/
def remove (c : Context) (key : Text) : Context := ⟨Dictionary.erase c.values key⟩

/-- Whether a key has a value. -/
def contains (c : Context) (key : Text) : Bool := (c.get? key).isSome

/-- The keys, in increasing order. -/
def keys (c : Context) : List Text := Dictionary.keys c.values

/-- The number of keys. -/
def size (c : Context) : Nat := c.values.length

/-- Binds each of some keys in turn. -/
def insertAll (c : Context) (entries : List (Text × Json)) : Context :=
  entries.foldl (fun c (k, v) => c.insert k v) c

/-- The context as a JSON object. -/
def toJson (c : Context) : Json := .object c.values

/-- The value of a key as text: a string as it is, anything else as compact JSON, and `default`
for null or no value. -/
def textOf (c : Context) (key default : Text) : Text :=
  match c.get? key with
  | none | some .null => default
  | some (.string s) => s
  | some v => v.compact

/-- The count that a key holds: its value if that is an integer of 63 bits and a sign, else zero. -/
def count (c : Context) (key : Text) : Int :=
  ((c.get? key).bind Json.int64?).getD 0

/-- Counts a key up by one. -/
def increment (c : Context) (key : Text) : Context := c.insert key (.int (c.count key + 1))

/-- The list that a key holds; anything else counts as an empty one. -/
def list (c : Context) (key : Text) : List Json := ((c.get? key).bind Json.items?).getD []

/-- Adds a value at the end of the list that a key holds. -/
def push (c : Context) (key : Text) (value : Json) : Context :=
  c.insert key (.array (c.list key ++ [value]))

/-! ## Lemmas -/

theorem get?_insert (c : Context) (k : Text) (v : Json) (j : Text) :
    (c.insert k v).get? j = if j = k then some v else c.get? j :=
  Dictionary.get?_insert k v c.values j

theorem get?_remove (c : Context) (k j : Text) :
    (c.remove k).get? j = if j = k then none else c.get? j :=
  Dictionary.get?_erase c.values k j

end Context

end Tagtext
