import Tagtext.Handler
import Tagtext.Template.Value
import Tagtext.Text.Blank
import Tagtext.Text.Case

/-!
# Filters, tests and functions

What the filters, the tests and the functions of the template language make of
the values they are given.  Each takes a fixed number of values; what is given
under names counts as one more, a mapping.  A filter or a test that does not
exist breaks the rules of the language, but only when it is reached.
-/

namespace Tagtext

namespace Template

/-- What is given to a filter, a test or a function: values in order, then values with names. -/
structure Given where
  inOrder : List Value
  named : List (Text × Value)

namespace Given

/-- All that is given, the named values as one mapping. -/
def values (g : Given) : List Value :=
  g.inOrder ++ if g.named.isEmpty then [] else [.map (Dictionary.ofList g.named)]

/-- A value that may be left out; null and undefined count as left out. -/
def optional? (g : Given) (index : Nat) : Option Value :=
  match g.values[index]? with
  | some .undefined | some .null | none => none
  | some v => some v

/-- A result, unless more values are given than are taken. -/
def upTo {α : Type} (g : Given) (n : Nat) (r : Except TemplateError α) : Except TemplateError α :=
  if n < g.values.length then .error .failed else r

/-- A text that may be left out; nothing given under a name is a text. -/
def text? (g : Given) : Except TemplateError (Option Text) :=
  if g.named.isEmpty then .ok ((g.optional? 0).map Value.display) else .error .failed

end Given

/-! ## Filters -/

/-- Drops the given characters at both ends. -/
def trimChars (chars s : Text) : Text :=
  ((s.dropWhile chars.contains).reverse.dropWhile chars.contains).reverse

/-- The items of a value as text, with a separator between them. -/
def joined (v : Value) (separator : Text) : Except TemplateError Value :=
  match v.visit? with
  | some items => .ok (.text (joinWith separator (items.map Value.display)))
  | none => .error .failed

/-- A value, or another one in place of undefined; if what is given second is true, in place of all
that is not true. -/
def defaulted (v : Value) (g : Given) : Value :=
  let replaces := match v with
    | .undefined => true
    | _ => !v.truth && g.values[1]?.any Value.truth
  if replaces then g.values.headD (.text []) else v

/-- What a filter makes of a value. -/
def applyFilter (name : Text) (v : Value) (g : Given) : Except TemplateError Value :=
  match String.ofList name with
  | "upper" => g.upTo 0 <| .ok (.text (toUpper v.display))
  | "lower" => g.upTo 0 <| .ok (.text (toLower v.display))
  | "length" | "count" => g.upTo 0 <|
    match v.length? with
    | some n => .ok (.nat n)
    | none => .error .failed
  | "join" => g.upTo 1 do joined v ((← g.text?).getD [])
  | "default" | "d" => g.upTo 2 <| .ok (defaulted v g)
  | "trim" => g.upTo 1 do
    match ← g.text? with
    | some chars => .ok (.text (trimChars chars v.display))
    | none => .ok (.text (trim v.display))
  | _ => .error .malformed

/-! ## Tests -/

/-- What a test says of a value. -/
def applyTest (name : Text) (v : Value) (g : Given) : Except TemplateError Value :=
  let isUndefined := match v with | .undefined => true | _ => false
  match String.ofList name with
  | "defined" => g.upTo 0 <| .ok (.bool !isUndefined)
  | "undefined" => g.upTo 0 <| .ok (.bool isUndefined)
  | _ => .error .malformed

/-! ## Functions -/

/-- A natural number of 32 bits. -/
def natural32? (v : Value) : Option Nat :=
  (v.index?.filter fun n => 0 ≤ n && n < 0x100000000).map Int.toNat

/-- The numbers from `low` up to but not with `high`, in steps. -/
def steps (low high step : Nat) : Except TemplateError Value :=
  let length := (high - low + step - 1) / step
  if step = 0 ∨ 100000 < length then .error .failed
  else .ok (.list ((List.range length).map fun i => .nat (low + i * step)))

/-- The value at an index as a natural number of 32 bits; `none` if it is left out. -/
def bound (g : Given) (index : Nat) : Except TemplateError (Option Nat) :=
  match g.optional? index with
  | none => .ok none
  | some v =>
    match natural32? v with
    | some n => .ok (some n)
    | none => .error .failed

/-- What a function returns. -/
def Function.call (f : Function) (g : Given) : Except TemplateError Value :=
  match f with
  | .range => g.upTo 3 do
    match g.values.head?.bind natural32? with
    | none => .error .failed
    | some first =>
      let step := (← bound g 2).getD 1
      match ← bound g 1 with
      | some last => steps first last step
      | none => steps 0 first step
  | .mapping | .record =>
    match g.inOrder with
    | [] | [.undefined] => .ok (.map (Dictionary.ofList g.named))
    | [.map members] => .ok (.map (Dictionary.ofList (members ++ g.named)))
    | _ => .error .failed
  | .report => .error .failed

/-- What a value returns when it is called; only functions can be. -/
def Value.call (v : Value) (g : Given) : Except TemplateError Value :=
  match v with
  | .function f => f.call g
  | _ => .error .failed

end Template

end Tagtext
