import Tagtext.CommandLine.Grammar
import Tagtext.CommandLine.Run

/-!
# The program

Reads the command line, runs the command on the files of the machine, and prints
what it leaves behind: the output to standard output, all else to standard error.
-/

namespace Tagtext

namespace CommandLine

/-- How the program is called. -/
def usage : String :=
  "Expands tags in text.\n\nUsage:\n" ++
  "  tagtext render [INPUT] [-t FILE] [-c FILE] [--set KEY=VALUE]... [--diagnostics]\n" ++
  "  tagtext list [-t FILE] [-c FILE] [--json]\n"

/-- What is wrong with a command line that asks for nothing that can be done. -/
def UsageError.text : UsageError → String
  | help | version | noCommand => ""
  | unknownCommand => "error: unknown command\n\n"
  | unknownArgument => "error: unexpected argument\n\n"
  | repeated => "error: an argument may be given once only\n\n"
  | missingValue => "error: an argument lacks its value\n\n"
  | surplusValue => "error: an option takes no value\n\n"
  | badSetting => "error: expected KEY=VALUE with a key that is not empty\n\n"

/-- The text that bytes spell. -/
def textOfBytes (bytes : ByteArray) : Option Text := (String.fromUTF8? bytes).map (·.toList)

/-- All bytes up to the end of standard input. -/
partial def readAll (input : IO.FS.Stream) (before : ByteArray) : IO ByteArray := do
  let chunk ← input.read 65536
  if chunk.isEmpty then return before
  readAll input (before ++ chunk)

/-- The files of the machine. -/
def machine : Host IO where
  textOf path := do
    match ← (IO.FS.readBinFile (String.ofList path)).toBaseIO with
    | .ok bytes => return textOfBytes bytes
    | .error _ => return none
  standardInput := do
    match ← (do readAll (← IO.getStdin) .empty : IO ByteArray).toBaseIO with
    | .ok bytes => return textOfBytes bytes
    | .error _ => return none

/-- Prints an outcome, and returns the exit code. -/
def Outcome.print (o : Outcome) : IO UInt32 := do
  for w in o.warnings do
    IO.eprintln ("warning: " ++ String.ofList w)
  match o.failure with
  | some message =>
    IO.eprintln ("Error: " ++ String.ofList message)
    return 1
  | none =>
    IO.print (String.ofList o.output)
    return 0

end CommandLine

end Tagtext

open Tagtext.CommandLine in
/-- Runs the program. -/
def main (args : List String) : IO UInt32 := do
  match Command.parse (args.map (·.toList)) with
  | .ok command => (← command.run machine).print
  | .error .help => IO.print usage; return 0
  | .error .version => IO.println "tagtext 0.4.0"; return 0
  | .error e => IO.eprint (e.text ++ usage); return 2
