import Tagtext.Builtins
import Tagtext.CommandLine.Command
import Tagtext.CommandLine.Listing
import Tagtext.ConfigFile
import Tagtext.Engine
import Tagtext.TemplateFile
import Tagtext.Template.Rendering

/-!
# Running commands

A command sets up an engine with the built-in tags, and with a configuration and
templates if files are named.  It reads these files first, then the text to
render, and stops at the first fault; what it prints is all in its outcome.  The
user can interrupt it while it renders, which cancels the run.
-/

namespace Tagtext

namespace CommandLine

/-- What a command finds around it. -/
structure Host (m : Type → Type) where
  /-- The files; one that cannot be read as text is `none`. -/
  textOf : Text → m (Option Text)
  standardInput : m (Option Text)
  /-- When the user interrupts the rendering, counted from its start. -/
  interruptAt : Option Nat := none
  /-- How much time the rendering takes by itself. -/
  pace : Pace := {}

/-- What a command leaves behind. -/
structure Outcome where
  /-- What is printed. -/
  output : Text := []
  /-- What was recovered from. -/
  warnings : List Text := []
  /-- Why the command failed, if it did. -/
  failure : Option Text := none

/-- Whether a path names standard input: `-`, however it is spelt. -/
def isStandardInput : Text → Bool
  | '-' :: rest => rest.isEmpty || (rest.head? == some '/' && splitsIntoHere rest)
  | _ => false
where
  /-- Whether nothing but `.` stands between slashes. -/
  splitsIntoHere (t : Text) : Bool := (t.splitOn '/').all fun part => part.isEmpty || part == ['.']

variable {m : Type → Type} [Monad m]

/-- The text of a file. -/
def Host.file (h : Host m) (path : Text) : ExceptT Text m Text := do
  match ← h.textOf path with
  | some t => return t
  | none => throw ("reading ".toList ++ path)

/-- The text to render. -/
def Host.input (h : Host m) (path : Option Text) : ExceptT Text m Text := do
  match path.filter (!isStandardInput ·) with
  | some path => h.file path
  | none =>
    match ← h.standardInput with
    | some t => return t
    | none => throw "reading stdin".toList

/-- The configuration that a file holds. -/
def Host.config (h : Host m) (path : Option Text) : ExceptT Text m Config := do
  match path with
  | none => return {}
  | some path =>
    match Config.parse (← h.file path) with
    | .ok c => return c
    | .error _ => throw ("loading config from ".toList ++ path)

/-- The templates that a file holds. -/
def Host.templates (h : Host m) (path : Option Text) : ExceptT Text m (Option TemplateSource) := do
  match path with
  | none => return none
  | some path =>
    match TemplateStore.parse (← h.file path) with
    | .ok store => return some { store }
    | .error _ => throw ("loading templates from ".toList ++ path)

/-- The engine that files set up. -/
def Host.engine (h : Host m) (files : Files) : ExceptT Text m Engine := do
  let config ← h.config files.config
  let templates ← h.templates files.templates
  match Engine.build
      { registrations := Builtins.all, templates, render := Template.render, config } with
  | .ok e => return e
  | .error e => throw e.message

/-- Renders a text, up to where the user interrupts it. -/
def renderText (e : Engine) (input : Text) (settings : List (Text × Json)) (diagnostics : Bool)
    (interruptAt : Option Nat := none) (pace : Pace := {}) : Except Text Outcome :=
  let report := e.run input (Context.empty.insertAll settings) true false interruptAt false pace
  match report.halt with
  | some cause => .error cause.message
  | none =>
    .ok { output := report.output
          warnings := if diagnostics then report.diagnostics.map (·.message) else [] }

/-- Does what a command asks for, or says why not. -/
def Command.attempt (h : Host m) : Command → ExceptT Text m Outcome
  | .render input files settings diagnostics => do
    let e ← h.engine files
    let text ← h.input input
    ExceptT.mk (pure (renderText e text settings diagnostics h.interruptAt h.pace))
  | .list files json => do
    let e ← h.engine files
    let infos := e.list .empty
    return { output := (if json then jsonListing infos else listing infos) ++ ['\n'] }

/-- Runs a command. -/
def Command.run (h : Host m) (c : Command) : m Outcome := do
  match ← (c.attempt h).run with
  | .ok outcome => return outcome
  | .error message => return { failure := some message }

end CommandLine

end Tagtext
