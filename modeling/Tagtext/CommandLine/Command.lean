import Tagtext.Json.Reader

/-!
# Commands

What a command line can ask for: to render a text, or to list the tags that an
author can use.  A setting `KEY=VALUE` puts a value into the context; the value
is JSON where it can be read as JSON, and a string where not.
-/

namespace Tagtext

namespace CommandLine

/-- The files from which an engine is set up. -/
structure Files where
  templates : Option Text := none
  config : Option Text := none
  deriving DecidableEq, Repr

/-- What a command line asks for. -/
inductive Command where
  /-- Evaluates a text and prints the output. -/
  | render (input : Option Text) (files : Files) (settings : List (Text × Json))
      (diagnostics : Bool)
  /-- Lists the tags that an author can use. -/
  | list (files : Files) (json : Bool)

/-- Why a command line asks for nothing that can be done. -/
inductive UsageError where
  /-- It asks for help. -/
  | help
  /-- It asks for the version. -/
  | version
  /-- It names no command. -/
  | noCommand
  /-- It names something that is no command. -/
  | unknownCommand
  | unknownArgument
  /-- What may be given once is given again. -/
  | repeated
  /-- A value is missing, or empty where it must not be. -/
  | missingValue
  /-- A value is given to an option without value. -/
  | surplusValue
  /-- A setting has no key. -/
  | badSetting
  deriving DecidableEq, Repr

/-- The key and the value of a setting. -/
def setting? (t : Text) : Option (Text × Json) :=
  match t.span (· != '=') with
  | (_ :: _, []) | ([], _) => none
  | (key, _ :: value) => some (key, (Json.parse? value).getD (.string value))

end CommandLine

end Tagtext
