import TagCheck.Settings

namespace TagCheck.CommandLine

/-!
# Flags of the command line

The program knows two commands.  Each of them, and the program itself, understands flags of its own
beside those for help and for logging.
-/

/-- What the program can be asked to do. -/
inductive Command where
  /-- Check the sources below some paths. -/
  | typecheck
  /-- Tell the type of a signature in a file. -/
  | probe
  deriving Repr, DecidableEq

/-- A flag, with or without a value. -/
inductive Flag where
  | help
  | version
  | verbose
  | logJson
  | logFile
  | level
  | format
  | config
  | threads
  | line
  deriving Repr, DecidableEq

/-- Why arguments are not accepted, or what they ask for instead of a command. -/
inductive UsageError where
  | helpAsked
  | versionAsked
  /-- There are no arguments. -/
  | nothingAsked
  | missingCommand
  | unknownCommand (word : String)
  /-- A flag that is not known here, or a word too many. -/
  | unknownArgument (argument : String)
  /-- A flag that takes no value has one. -/
  | needlessValue (flag : Flag)
  | missingValue (flag : Flag)
  /-- The value of a flag is a word that it does not know. -/
  | unknownChoice (flag : Flag) (value : String)
  /-- The value of a flag cannot be read. -/
  | unreadableValue (flag : Flag) (value : String)
  /-- The name of a file is empty. -/
  | emptyPath
  | repeated (flag : Flag)
  /-- Two flags exclude each other. -/
  | conflict (flag other : Flag)
  /-- A word that the command needs is missing. -/
  | missingWord
  deriving Repr, DecidableEq

namespace Command

/-- The word for a command. -/
def word : Command → String
  | typecheck => "typecheck"
  | probe => "probe"

/-- The command that a word stands for. -/
def read? (word : String) : Option Command :=
  [typecheck, probe].find? (·.word = word)

end Command

namespace Flag

/-- The long name of a flag. -/
def longName : Flag → String
  | help => "help"
  | version => "version"
  | verbose => "verbose"
  | logJson => "log-json"
  | logFile => "log-file"
  | level => "level"
  | format => "format"
  | config => "config"
  | threads => "threads"
  | line => "line"

/-- The letter for a flag. -/
def letter? : Flag → Option Char
  | help => some 'h'
  | version => some 'V'
  | verbose => some 'v'
  | logJson => none
  | logFile => none
  | level => some 'l'
  | format => some 'f'
  | config => some 'c'
  | threads => some 't'
  | line => some 'l'

/-- A value belongs to the flag. -/
def takesValue : Flag → Bool
  | help | version | verbose | logJson => false
  | logFile | level | format | config | threads | line => true

/-- The flags that a command understands, or that the program understands before it. -/
def known : Option Command → List Flag
  | none => [help, version, verbose, logJson, logFile]
  | some .typecheck => [help, verbose, logJson, logFile, level, format, config, threads]
  | some .probe => [help, verbose, logJson, logFile, line]

/-- The flag of a long name. -/
def ofName? (command : Option Command) (name : String) : Option Flag :=
  (known command).find? (·.longName = name)

/-- The flag of a letter. -/
def ofLetter? (command : Option Command) (letter : Char) : Option Flag :=
  (known command).find? (·.letter? = some letter)

end Flag

end TagCheck.CommandLine
