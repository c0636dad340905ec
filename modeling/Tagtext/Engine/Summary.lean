import Tagtext.Engine
import Tagtext.Text.Literal

/-!
# Summary of an engine

One line that tells how an engine is set up: the names of its providers in the
order in which they are asked, the number of its seeds, and its configuration.
-/

namespace Tagtext

/-- Fields between braces behind the name of their record. -/
def showRecord (name : String) (fields : List (String × Text)) : Text :=
  name.toList ++ " \x7b ".toList ++
    joinWith ", ".toList (fields.map fun (k, v) => k.toList ++ ": ".toList ++ v) ++ " \x7d".toList

/-- A choice for failed tags in a summary. -/
def Failure.summary : Failure → Text
  | empty => "Empty".toList
  | placeholder t => "Placeholder(".toList ++ literal t ++ [')']

/-- A choice for unclosed tags in a summary. -/
def Unclosed.summary : Unclosed → Text
  | standalone => "Standalone".toList
  | literal => "Literal".toList

/-- A time in a summary. -/
def timeSummary : Option Nat → Text
  | some n => "Some(".toList ++ decimal n ++ [')']
  | none => "None".toList

/-- A configuration in a summary. -/
def Config.summary (c : Config) : Text :=
  showRecord "EngineConfig"
    [("max_nesting_depth", decimal c.maxNestingDepth),
     ("failure", c.failure.summary),
     ("unclosed", c.unclosed.summary),
     ("timeout_ms", timeSummary c.timeout)]

/-- The summary of an engine. -/
def Engine.summary (e : Engine) : Text :=
  let names := e.providers.map fun p => literal p.name
  showRecord "Engine"
    [("registry",
      showRecord "ProviderRegistry" [("providers", '[' :: joinWith ", ".toList names ++ [']'])]),
     ("context_providers", decimal e.seeds.length),
     ("config", e.config.summary)]

end Tagtext
