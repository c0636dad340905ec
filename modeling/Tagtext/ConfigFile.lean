import Tagtext.Config
import Tagtext.Yaml.Reader

/-!
# Configuration files

A configuration file is a YAML mapping with the keys `max_nesting_depth`,
`failure`, `unclosed` and `timeout_ms`, each at most once and each optional; any
other key is refused.  What the file says is checked as a whole: a file that
cannot be read is refused as such even where its values would be refused too.
-/

namespace Tagtext

namespace Config

/-- The choice that a file makes for failed tags: `empty`, or `placeholder` with a text. -/
def failureOf? : Yaml → Option Failure
  | .scalar t plain =>
    if Yaml.isString t plain && t == "empty".toList then some .empty else none
  | .mapping [(key, v)] =>
    if key.scalarText? = some "placeholder".toList then v.scalarText?.map .placeholder else none
  | _ => none

/-- The choice that a file makes for unclosed tags. -/
def unclosedOf? (v : Yaml) : Option Unclosed :=
  match v.scalarText? with
  | some t =>
    if t = "standalone".toList then some .standalone
    else if t = "literal".toList then some .literal
    else none
  | none => none

/-- The choice that a file makes for the timeout: a number, or null for none. -/
def timeoutOf? (v : Yaml) : Option (Option Nat) :=
  if v.isNull then some none else v.natural64?.map some

/-- Takes over one entry of a file. -/
def set? (c : Config) (key : Text) (v : Yaml) : Option Config :=
  if key = "max_nesting_depth".toList then
    v.natural64?.map fun n => { c with maxNestingDepth := n }
  else if key = "failure".toList then (failureOf? v).map fun f => { c with failure := f }
  else if key = "unclosed".toList then (unclosedOf? v).map fun u => { c with unclosed := u }
  else if key = "timeout_ms".toList then (timeoutOf? v).map fun t => { c with timeout := t }
  else none

/-- What a document says. -/
def ofDocument? (v : Yaml) : Option Config := do
  let entries ← v.entries?
  if (entries.map (·.1)).Nodup then
    entries.foldlM (fun c (key, v) => c.set? key v) {}
  else none

/-- Reads a configuration file. -/
def parse (file : Text) : Except ConfigError Config :=
  match (Yaml.parse? file).bind ofDocument? with
  | some c => c.validate
  | none => .error .unreadable

end Config

end Tagtext
