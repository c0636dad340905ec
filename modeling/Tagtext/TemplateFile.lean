import Tagtext.TemplateStore
import Tagtext.Yaml.Reader

/-!
# Template files

A template file is a YAML sequence of mappings.  Each has a `name` and a
`content`, taken as text whatever they spell, and may have a `hint`, a `usage`
and a `return_shortcode`, each a string or null, and `categories`, a sequence of
strings.  None of these keys may be repeated; other keys are passed over.
-/

namespace Tagtext

namespace Template

/-- The one value of a key; `none` if it is repeated. -/
def single? (key : String) (entries : List (Text × Yaml)) : Option (Option Yaml) :=
  match Yaml.valuesOf key.toList entries with
  | [] => some none
  | [v] => some (some v)
  | _ => none

/-- The text of a key that must be there. -/
def required? (key : String) (entries : List (Text × Yaml)) : Option Text :=
  match single? key entries with
  | some (some v) => v.scalarText?
  | _ => none

/-- The string of a key that may be missing or null. -/
def optional? (key : String) (entries : List (Text × Yaml)) : Option (Option Text) :=
  match single? key entries with
  | none => none
  | some none => some none
  | some (some v) => if v.isNull then some none else v.string?.map some

/-- The strings of a key that may be missing. -/
def strings? (key : String) (entries : List (Text × Yaml)) : Option (List Text) :=
  match single? key entries with
  | none => none
  | some none => some []
  | some (some v) => v.items?.bind (·.mapM Yaml.string?)

/-- The template that one mapping spells.  What is no name and no content is read as data, so the
integers in it must fit 64 bits. -/
def ofYaml? (v : Yaml) : Option Template := do
  let entries ← v.entries?
  let data := entries.filter fun (k, _) => k != "name".toList && k != "content".toList
  if !data.all (·.2.isNarrow) then none
  let name ← required? "name" entries
  let content ← required? "content" entries
  let hint ← optional? "hint" entries
  let usage ← optional? "usage" entries
  let snippet ← optional? "return_shortcode" entries
  let categories ← strings? "categories" entries
  some ⟨name, content, { hint, usage, snippet, categories }⟩

end Template

/-- How deep the collections in a template file may nest. -/
def TemplateStore.depthLimit : Nat := 128

/-- Reads a template file. -/
def TemplateStore.parse (file : Text) : Except ProviderError TemplateStore :=
  let document := (Yaml.parse? file).filter (·.depth ≤ depthLimit)
  match (document.bind Yaml.listed?).bind (·.mapM Template.ofYaml?) with
  | some ts => .ok ⟨ts⟩
  | none => .error .invalid

end Tagtext
