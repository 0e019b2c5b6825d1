import TagCheck.CommandLine.Run
import TagCheck.Project.Bundle

namespace TagCheck.CommandLine

/-!
# The command line

Reads the arguments, and the project from the standard input, and prints the answer.  The program
ends with 0 if there is nothing to complain about, with 1 if problems were found, and with 2 if the
request cannot be carried out.
-/

/-- How the program is used. -/
def usage : String :=
  "Usage: yardstick [FLAGS] typecheck [PATHS] [-l LEVEL] [-f FORMAT] [-c FILE] [-t THREADS]\n" ++
    "       yardstick [FLAGS] probe FILE SIGNATURE [-l LINE]\n" ++
    "Flags: -v, --verbose, --log-json, --log-file FILE, -h, --help, -V, --version\n"

/-- The wording of an error in the arguments. -/
def UsageError.message : UsageError → String
  | helpAsked | nothingAsked => usage
  | versionAsked => "yardstick 0.1.0\n"
  | missingCommand => "a command is missing\n" ++ usage
  | unknownCommand word => "unknown command " ++ word ++ "\n"
  | unknownArgument argument => "unexpected argument " ++ argument ++ "\n"
  | needlessValue flag => "--" ++ flag.longName ++ " takes no value\n"
  | missingValue flag => "--" ++ flag.longName ++ " needs a value\n"
  | unknownChoice flag value | unreadableValue flag value =>
      "invalid value for --" ++ flag.longName ++ ": " ++ value ++ "\n"
  | emptyPath => "the name of a file is empty\n"
  | repeated flag => "--" ++ flag.longName ++ " is given twice\n"
  | conflict flag other =>
      "--" ++ flag.longName ++ " cannot be used with --" ++ other.longName ++ "\n"
  | missingWord => "an argument is missing\n" ++ usage

/-- Read a stream to its end. -/
partial def readAll (input : IO.FS.Stream) (before : String) : IO String := do
  let line ← input.getLine
  if line.isEmpty then
    return before
  else
    readAll input (before ++ line)

/-- Print what a request answers. -/
def answer (request : Request) : IO UInt32 := do
  let project := Bundle.read (← readAll (← IO.getStdin) "")
  match request.run project with
  | .ok answer =>
      IO.print answer.output
      return if answer.hasProblems then 1 else 0
  | .error failure =>
      IO.eprintln ("error: " ++ failure.message)
      return 2

end TagCheck.CommandLine

open TagCheck.CommandLine in
/-- Run the program on its arguments. -/
def main (arguments : List String) : IO UInt32 := do
  match Request.read arguments with
  | .ok request => answer request
  | .error error =>
      match error with
      | .helpAsked | .versionAsked =>
          IO.print error.message
          return 0
      | _ =>
          IO.eprint error.message
          return 2
