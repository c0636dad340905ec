import Tagtext.CommandLine.Command

/-!
# The grammar of command lines

The first word names a command, and the words behind it are its arguments:

    render [INPUT] [-t FILE] [-c FILE] [--set KEY=VALUE]... [--diagnostics]
    list [-t FILE] [-c FILE] [--json]

An option's value is the next word, or stands behind `=`, or directly behind the
option's letter.  Behind `--` no word is an option.  Arguments are taken over one
by one: a value counts as given once the next argument is, or there is none, so
of two faults it is not always the first that is reported.
-/

namespace Tagtext

namespace CommandLine

/-- What an argument stands for. -/
inductive Slot where
  | input
  | templates
  | config
  | set
  | diagnostics
  | json
  | help
  | version
  deriving DecidableEq, Repr

/-- Whether an option takes a value. -/
def Slot.takesValue : Slot → Bool
  | input | templates | config | set => true
  | diagnostics | json | help | version => false

/-- The arguments of a command. -/
structure Grammar where
  /-- The options by name. -/
  named : List (String × Slot)
  /-- The options by letter. -/
  letters : List (Char × Slot)
  /-- Whether there may be an input. -/
  takesInput : Bool

/-- The options in front of a command. -/
def topGrammar : Grammar where
  named := [("help", .help), ("version", .version)]
  letters := [('h', .help), ('V', .version)]
  takesInput := false

/-- The arguments of `render`. -/
def renderGrammar : Grammar where
  named := [("templates", .templates), ("config", .config), ("set", .set),
    ("diagnostics", .diagnostics), ("help", .help)]
  letters := [('t', .templates), ('c', .config), ('h', .help)]
  takesInput := true

/-- The arguments of `list`. -/
def listGrammar : Grammar where
  named := [("templates", .templates), ("config", .config), ("json", .json), ("help", .help)]
  letters := [('t', .templates), ('c', .config), ('h', .help)]
  takesInput := false

/-! ## Taking arguments over -/

/-- What the arguments have given so far. -/
structure Given where
  input : Option Text := none
  files : Files := {}
  settings : List (Text × Json) := []
  diagnostics : Bool := false
  json : Bool := false

/-- The value of what may be given once and is a path. -/
def path (old : Option Text) (value : Text) : Except UsageError (Option Text) :=
  if old.isSome then .error .repeated
  else if value.isEmpty then .error .missingValue
  else .ok (some value)

/-- Sets what may be given once. -/
def flag (old : Bool) : Except UsageError Bool := if old then .error .repeated else .ok true

/-- Takes over an argument, whose value is `none` if it has none. -/
def Given.accept (g : Given) (slot : Slot) (value : Option Text) : Except UsageError Given :=
  match slot, value with
  | .help, _ => .error .help
  | .version, _ => .error .version
  | .diagnostics, _ => (flag g.diagnostics).map fun b => { g with diagnostics := b }
  | .json, _ => (flag g.json).map fun b => { g with json := b }
  | _, none => .error .missingValue
  | .input, some v => (path g.input v).map fun p => { g with input := p }
  | .templates, some v =>
    (path g.files.templates v).map fun p => { g with files.templates := p }
  | .config, some v => (path g.files.config v).map fun p => { g with files.config := p }
  | .set, some v =>
    match setting? v with
    | some s => .ok { g with settings := g.settings ++ [s] }
    | none => .error .badSetting

/-! ## Reading words -/

/-- How far arguments have been read. -/
structure Reading where
  given : Given := {}
  /-- An argument that is not taken over yet, with its value or still without. -/
  pending : Option (Slot × Option Text) := none
  /-- Whether `--` has been read. -/
  plainOnly : Bool := false

namespace Reading

/-- Takes over the pending argument. -/
def settle (r : Reading) : Except UsageError Reading :=
  match r.pending with
  | none => .ok r
  | some (slot, value) =>
    (r.given.accept slot value).map fun given => { r with given, pending := none }

/-- Whether there is an input already. -/
def hasInput (r : Reading) : Bool :=
  r.given.input.isSome || r.pending.any (·.1 == .input)

/-- Takes an option, with its value if that is part of its word. -/
def option (r : Reading) (slot : Slot) (value : Option Text) : Except UsageError Reading := do
  let r ← r.settle
  if slot.takesValue && value.isNone then .ok { r with pending := some (slot, none) }
  else (r.given.accept slot value).map fun given => { r with given }

end Reading

namespace Grammar

/-- Takes a word that is no option. -/
def plain (g : Grammar) (r : Reading) (word : Text) : Except UsageError Reading :=
  if g.takesInput && !r.hasInput then
    r.settle.map fun r => { r with pending := some (.input, some word) }
  else .error .unknownArgument

/-- Takes an option by its name, which may be followed by `=` and a value. -/
def named? (g : Grammar) (r : Reading) (word : Text) : Except UsageError Reading :=
  let (name, value) := word.span (· != '=')
  match g.named.find? (·.1.toList == name), value with
  | none, _ => .error .unknownArgument
  | some (_, slot), [] => r.option slot none
  | some (_, slot), _ :: v => if slot.takesValue then r.option slot (some v) else .error .surplusValue

/-- Takes options by their letters, the last of which may be followed by a value. -/
def lettered (g : Grammar) (r : Reading) : Text → Except UsageError Reading
  | [] => .ok r
  | c :: rest =>
    match g.letters.lookup c with
    | none => .error .unknownArgument
    | some slot =>
      if slot.takesValue then
        r.option slot <|
          match rest with
          | [] => none
          | '=' :: v => some v
          | v => some v
      else do
        let r ← r.option slot none
        g.lettered r rest

/-- Takes the next word. -/
def step (g : Grammar) (r : Reading) (word : Text) : Except UsageError Reading :=
  if r.plainOnly then g.plain r word
  else
    match word with
    | ['-', '-'] => .ok { r with plainOnly := true }
    | '-' :: '-' :: name => g.named? r name
    | '-' :: c :: rest => g.lettered r (c :: rest)
    | _ =>
      match r.pending with
      | some (slot, none) => .ok { r with pending := some (slot, some word) }
      | _ => g.plain r word

/-- What all words give. -/
def read (g : Grammar) (words : List Text) : Except UsageError Given := do
  let r ← words.foldlM g.step {}
  let r ← r.settle
  .ok r.given

end Grammar

/-! ## Commands -/

/-- The words that may stand in the place of a command. -/
def isCommandName (word : Text) : Bool := ["render", "list", "help"].any (·.toList == word)

/-- Why a command line that starts with a word other than a command cannot be followed. -/
def withoutCommand (word : Text) (rest : List Text) : UsageError :=
  match word with
  | ['-', '-'] =>
    match rest with
    | [] => .noCommand
    | w :: _ => if isCommandName w then .unknownArgument else .unknownCommand
  | '-' :: _ :: _ =>
    match topGrammar.step {} word with
    | .error e => e
    | .ok _ => .noCommand
  | _ => .unknownCommand

/-- Reads a command line. -/
def Command.parse : List Text → Except UsageError Command
  | [] => .error .noCommand
  | word :: rest =>
    if word = "render".toList then
      (renderGrammar.read rest).map fun g => .render g.input g.files g.settings g.diagnostics
    else if word = "list".toList then
      (listGrammar.read rest).map fun g => .list g.files g.json
    else if word = "help".toList then
      match rest with
      | [] => .error .help
      | topic :: more =>
        .error (if isCommandName topic && more.isEmpty then .help else .unknownCommand)
    else .error (withoutCommand word rest)

end CommandLine

end Tagtext
