import TagCheck.Check.Basic
import TagCheck.Toml.Reader

namespace TagCheck

/-!
# Settings

What a project may say about the checks in its settings file: the level, the format of the report,
patterns of paths to leave out, and the number of workers.  A setting that is not known, has a value
of another kind or is given twice spoils the whole file.
-/

/-- How problems are reported. -/
inductive ReportFormat where
  /-- A line for each problem, and a summary. -/
  | text
  /-- A JSON array. -/
  | json
  deriving Repr, DecidableEq

/-- The format that a word stands for. -/
def ReportFormat.read? (word : String) : Option ReportFormat :=
  match word with
  | "text" => some text
  | "json" => some json
  | _ => none

/-- The settings of a project. -/
structure Settings where
  level : CheckLevel := .normal
  format : ReportFormat := .text
  /-- Patterns of paths to leave out. -/
  exclude : List String := []
  /-- The number of workers; zero leaves the choice open.  Answers do not depend on it. -/
  threads : Nat := 0
  deriving Repr, DecidableEq

namespace Settings

/-- The file that holds the settings unless another one is named. -/
def filename : String :=
  "yardstick.toml"

/-- The greatest number of workers that can be given. -/
def maxThreads : Nat :=
  UInt64.size - 1

/-- A word: a text, or a table that holds nothing but the word and an empty value. -/
def word? : Toml.Value → Option String
  | .text content => some content
  | .table _ [(name, .table _ [])] | .table _ [(name, .array [])] => some name
  | _ => none

/-- A text. -/
def text? : Toml.Value → Option String
  | .text content => some content
  | _ => none

/-- A number of workers. -/
def count? : Toml.Value → Option Nat
  | .integer number =>
      if 0 ≤ number && number ≤ maxThreads then some number.toNat else none
  | _ => none

/-- Texts in an array. -/
def texts? : Toml.Value → Option (List String)
  | .array items => items.mapM text?
  | _ => none

/-- Take over one setting. -/
def takeOver? (settings : Settings) : String × Toml.Value → Option Settings
  | ("level", value) => do
      return { settings with level := ← (CheckLevel.read (← word? value)).toOption }
  | ("format", value) => do
      return { settings with format := ← ReportFormat.read? (← word? value) }
  | ("exclude", value) => do
      return { settings with exclude := ← texts? value }
  | ("threads", value) => do
      return { settings with threads := ← count? value }
  | _ => none

/-- The settings that a text gives; what it does not mention has its default. -/
def read? (text : String) : Option Settings := do
  (← Toml.readTable? text).foldlM takeOver? {}

end Settings

end TagCheck
