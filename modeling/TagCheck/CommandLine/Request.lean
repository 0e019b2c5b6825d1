import TagCheck.CommandLine.Scan

namespace TagCheck.CommandLine

/-!
# Requests

A request is what accepted arguments ask for.  Flags for logging may stand before and behind the
command, all others behind it; none may be given twice in one place.
-/

/-- What the program is asked to do.  Logging, and the number of workers, change no answer. -/
inductive Request where
  | typecheck (paths : List String) (level : Option CheckLevel) (format : Option ReportFormat)
      (config : Option String)
  | probe (file signature : String) (line : Option Nat)
  deriving Repr, DecidableEq

/-- The flags and words that have been given in one place. -/
structure Given where
  flags : List Flag := []
  level : Option CheckLevel := none
  format : Option ReportFormat := none
  config : Option String := none
  line : Option Nat := none
  words : List String := []
  deriving Repr, DecidableEq

namespace Given

/-- The greatest number that can be given. -/
def maxCount : Nat :=
  UInt64.size - 1

/-- The number that digits write; a plus sign may stand in front. -/
def count? (text : String) : Option Nat := do
  let digits :=
    match text.toList with
    | '+' :: digits => digits
    | digits => digits
  if digits.isEmpty || !digits.all Char.isDigit then
    none
  let number := digits.foldl (fun number digit => 10 * number + (digit.toNat - '0'.toNat)) 0
  if number ≤ maxCount then some number else none

/-- The number given for a flag. -/
def readCount (flag : Flag) (value : String) : Except UsageError Nat :=
  match count? value with
  | some number => .ok number
  | none => .error (.unreadableValue flag value)

/-- The name of a file must not be empty. -/
def readPath (value : String) : Except UsageError String :=
  if value.isEmpty then .error .emptyPath else .ok value

/-- Take over the value of a flag. -/
def setValue (given : Given) (flag : Flag) (value : String) : Except UsageError Given := do
  match flag with
  | .level =>
      match CheckLevel.read value with
      | .ok level => return { given with level := some level }
      | .error _ => throw (.unreadableValue flag value)
  | .format =>
      match ReportFormat.read? value with
      | some format => return { given with format := some format }
      | none => throw (.unknownChoice flag value)
  | .config => return { given with config := some (← readPath value) }
  | .line => return { given with line := some (← readCount flag value) }
  | .threads => do
      let _ ← readCount flag value
      return given
  | .logFile => do
      let _ ← readPath value
      return given
  | .help | .version | .verbose | .logJson => return given

/-- Take over a flag, which must not have been given before. -/
def addFlag (given : Given) (flag : Flag) (value : Option String) : Except UsageError Given := do
  if flag = .help then
    throw .helpAsked
  if flag = .version then
    throw .versionAsked
  if flag.takesValue && value.isNone then
    throw (.missingValue flag)
  if given.flags.contains flag then
    throw (.repeated flag)
  let given := { given with flags := given.flags ++ [flag] }
  match value with
  | some value => given.setValue flag value
  | none => return given

/-- Take over a flag or a word.  Only the signature of a probe may be empty. -/
def add (given : Given) : Occurrence → Except UsageError Given
  | .flag flag value | .valued flag value => given.addFlag flag value
  | .word slot text => do
      let text ← if slot = 0 then readPath text else .ok text
      return { given with words := given.words ++ [text] }

/-- Take over several flags and words. -/
def addAll (given : Given) (occurrences : List Occurrence) : Except UsageError Given :=
  occurrences.foldlM add given

/-- A log is either written as JSON or into a file. -/
def checkConflicts (given : Given) : Except UsageError Unit :=
  if given.flags.contains .logJson && given.flags.contains .logFile then
    .error (.conflict .logJson .logFile)
  else
    .ok ()

/-- The request that a command with its flags and words is. -/
def request (given : Given) : Command → Except UsageError Request
  | .typecheck =>
      let paths := if given.words.isEmpty then ["."] else given.words
      .ok (.typecheck paths given.level given.format given.config)
  | .probe =>
      match given.words with
      | [file, signature] => .ok (.probe file signature given.line)
      | _ => .error .missingWord

end Given

namespace Request

/-- Read the arguments of a command. -/
def readCommand (command : Command) (arguments : List String) : Except UsageError Request := do
  let scan := Scan.ofArguments (some command) none false 0 arguments
  let (settled, pending) := Scan.settled scan.occurrences
  let given ← Given.addAll {} settled
  match scan.stop with
  | .refused error => throw error
  | .atEnd | .atCommand .. =>
      let given ← given.addAll pending
      given.checkConflicts
      given.request command

/-- Read all arguments of the program. -/
def read (arguments : List String) : Except UsageError Request := do
  let scan := Scan.ofArguments none none false 0 arguments
  let (settled, pending) := Scan.settled scan.occurrences
  let given ← Given.addAll {} settled
  match scan.stop with
  | .refused error => throw error
  | .atEnd =>
      let given ← given.addAll pending
      throw (if given.flags.isEmpty then .nothingAsked else .missingCommand)
  | .atCommand command arguments =>
      let request ← readCommand command arguments
      let given ← given.addAll pending
      given.checkConflicts
      return request

end Request

end TagCheck.CommandLine
