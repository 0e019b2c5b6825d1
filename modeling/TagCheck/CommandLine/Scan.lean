import TagCheck.CommandLine.Flag

namespace TagCheck.CommandLine

/-!
# Scanning arguments

Arguments are flags, values of flags, and words.  Scanning tells them apart and stops at a command
or at an argument that fits nowhere.  What the values mean is looked at later, and a value that
stands in an argument of its own only once a further flag or word follows it.
-/

/-- A flag or a word in the arguments. -/
inductive Occurrence where
  /-- A flag with a value in the same argument, or without one if it takes none. -/
  | flag (flag : Flag) (attached : Option String)
  /-- A flag with its value in the argument behind it, if there is one. -/
  | valued (flag : Flag) (value : Option String)
  /-- A word; words in the same slot belong together. -/
  | word (slot : Nat) (text : String)
  deriving Repr, DecidableEq

/-- Why scanning stops. -/
inductive Stop where
  | atEnd
  /-- An argument fits nowhere. -/
  | refused (error : UsageError)
  /-- A command begins, with arguments of its own. -/
  | atCommand (command : Command) (arguments : List String)
  deriving Repr, DecidableEq

/-- The flags and words of arguments, and why scanning stops behind them. -/
structure Scan where
  occurrences : List Occurrence
  stop : Stop
  deriving Repr, DecidableEq

namespace Scan

/-- Put occurrences in front. -/
def prepend (occurrences : List Occurrence) (scan : Scan) : Scan :=
  { scan with occurrences := occurrences ++ scan.occurrences }

/-- Nothing more than a stop. -/
def halt (stop : Stop) : Scan :=
  ⟨[], stop⟩

/-- The slot of the next word: all words of a check are alike, and a probe has two of them. -/
def slot? (command : Option Command) (taken : Nat) : Option Nat :=
  match command with
  | none => none
  | some .typecheck => some 0
  | some .probe => if taken < 2 then some taken else none

/-- Why a word without a slot is refused. -/
def refusal (command : Option Command) (isEscaped : Bool) (word : String) : UsageError :=
  if command.isSome || (isEscaped && (word = "help" || (Command.read? word).isSome)) then
    .unknownArgument word
  else
    .unknownCommand word

/-- What the help command says to the words behind it: it knows all commands, one at a time. -/
def helpOn : List String → UsageError
  | [] => .helpAsked
  | [word] =>
      if word = "help" || (Command.read? word).isSome then .helpAsked else .unknownCommand word
  | word :: other :: _ =>
      if word = "help" || (Command.read? word).isSome then .unknownCommand other
      else .unknownCommand word

/-- What the letters in one argument are, and the flag that waits for a value behind them. -/
def letters (command : Option Command) :
    List Char → List Occurrence × Except UsageError (Option Flag)
  | [] => ([], .ok none)
  | letter :: rest =>
      match Flag.ofLetter? command letter with
      | none => ([], .error (.unknownArgument (String.ofList ['-', letter])))
      | some flag =>
          if flag.takesValue then
            match rest with
            | [] => ([], .ok (some flag))
            | '=' :: value => ([.flag flag (some (String.ofList value))], .ok none)
            | value => ([.flag flag (some (String.ofList value))], .ok none)
          else
            let (occurrences, behind) := letters command rest
            (.flag flag none :: occurrences, behind)

/-- What a long flag is, given its name and the text behind an equals sign. -/
def longFlag (command : Option Command) (name : String) (value : Option String) :
    List Occurrence × Except UsageError (Option Flag) :=
  match Flag.ofName? command name, value with
  | none, _ => ([], .error (.unknownArgument ("--" ++ name)))
  | some flag, some value =>
      if flag.takesValue then ([.flag flag (some value)], .ok none)
      else ([], .error (.needlessValue flag))
  | some flag, none =>
      if flag.takesValue then ([], .ok (some flag)) else ([.flag flag none], .ok none)

/-- What an argument with flags is; none if it is a word or a value. -/
def flags? (command : Option Command) (argument : String) :
    Option (List Occurrence × Except UsageError (Option Flag)) :=
  match argument.toList with
  | '-' :: '-' :: body =>
      match body.span (· ≠ '=') with
      | (name, []) => some (longFlag command (String.ofList name) none)
      | (name, _ :: value) =>
          some (longFlag command (String.ofList name) (some (String.ofList value)))
  | '-' :: letter :: rest => some (letters command (letter :: rest))
  | _ => none

/-- A flag that still waits for its value goes without. -/
def unanswered (awaiting : Option Flag) : List Occurrence :=
  (awaiting.map fun flag => .valued flag none).toList

/--
Scan arguments.  `awaiting` is a flag whose value comes next, behind a double dash there are only
words, and `taken` counts the words so far.
-/
def ofArguments (command : Option Command) (awaiting : Option Flag) (isEscaped : Bool)
    (taken : Nat) : List String → Scan
  | [] => ⟨unanswered awaiting, .atEnd⟩
  | argument :: rest =>
      let asWord :=
        prepend (unanswered awaiting) <|
          match slot? command taken with
          | some slot =>
              (ofArguments command none isEscaped (taken + 1) rest).prepend [.word slot argument]
          | none => halt (.refused (refusal command isEscaped argument))
      if isEscaped then
        asWord
      else if argument = "--" then
        ofArguments command awaiting true taken rest
      else
        match flags? command argument with
        | some (occurrences, behind) =>
            prepend (unanswered awaiting ++ occurrences) <|
              match behind with
              | .ok awaiting => ofArguments command awaiting false taken rest
              | .error error => halt (.refused error)
        | none =>
            match awaiting with
            | some flag =>
                (ofArguments command none false taken rest).prepend [.valued flag (some argument)]
            | none =>
                if command.isSome then
                  asWord
                else if argument = "help" then
                  halt (.refused (helpOn rest))
                else
                  match Command.read? argument with
                  | some found => halt (.atCommand found rest)
                  | none => asWord

/-- The occurrence belongs to another one behind it, with which its value is looked at. -/
def isSameSlot : Occurrence → Occurrence → Bool
  | .word slot _, .word other _ => slot = other
  | _, _ => false

/--
The occurrences whose values are looked at while scanning, and those at the end whose values stand
in arguments of their own with nothing behind them.
-/
def settled : List Occurrence → List Occurrence × List Occurrence
  | [] => ([], [])
  | occurrence :: rest =>
      match settled rest with
      | ([], []) =>
          match occurrence with
          | .flag .. => ([occurrence], [])
          | _ => ([], [occurrence])
      | ([], pending) =>
          if pending.all (isSameSlot occurrence) then ([], occurrence :: pending)
          else ([occurrence], pending)
      | (before, pending) => (occurrence :: before, pending)

end Scan

end TagCheck.CommandLine
