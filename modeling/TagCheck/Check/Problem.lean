import TagCheck.DocType.Printer
import TagCheck.Tree.Span

namespace TagCheck

/-!
# Problems

A problem is a finding at a place.  Documentation that is missing or cannot be understood is a
warning, and code that contradicts its documentation is an error.
-/

/-- How serious a problem is. -/
inductive Severity where
  | warning
  | error
  deriving Repr, DecidableEq

/-- What is wrong. -/
inductive Finding where
  /-- A method has no documented return type; one may be suggested. -/
  | undefinedReturn (path : String) (suggestion : Option String)
  /-- The documented return type names something that is not declared. -/
  | unresolvedReturn (path : String) (type : DocUnion)
  /-- A parameter is documented that the method does not have. -/
  | unknownParam (path name : String)
  /-- A parameter has no documented type. -/
  | undefinedParam (path name : String)
  /-- The documented type of a parameter names something that is not declared. -/
  | unresolvedParam (path name : String)
  /-- A method returns something else than it documents. -/
  | returnMismatch (path : String) (documented inferred : DocUnion)
  /-- A call reaches no method. -/
  | unresolvedCall (name : String)
  /-- An argument has another type than its parameter documents. -/
  | argumentMismatch (path name : String) (expected received : DocUnion)
  deriving Repr, DecidableEq

/-- A finding and where it was made. -/
structure Problem where
  location : Location
  finding : Finding
  deriving Repr, DecidableEq

namespace Severity

/-- The word for a severity. -/
def display : Severity → String
  | warning => "warning"
  | error => "error"

end Severity

namespace Finding

/-- Missing and unreadable documentation is a warning, all else an error. -/
def severity : Finding → Severity
  | undefinedReturn .. | unresolvedReturn .. | unknownParam .. | undefinedParam ..
  | unresolvedParam .. => .warning
  | returnMismatch .. | unresolvedCall _ | argumentMismatch .. => .error

/-- A text between backquotes. -/
def quoted (text : String) : String :=
  "\x60" ++ text ++ "\x60"

/-- The wording of a finding. -/
def message : Finding → String
  | undefinedReturn path _ => quoted path ++ " has undefined @return type"
  | unresolvedReturn path type =>
      quoted path ++ " has unresolved @return type " ++ quoted type.tag
  | unknownParam path name => quoted path ++ " has unknown @param " ++ name
  | undefinedParam path name => quoted path ++ " has undefined @param type for " ++ name
  | unresolvedParam path name => quoted path ++ " has unresolved @param type for " ++ name
  | returnMismatch path documented inferred =>
      quoted path ++ " @return type " ++ quoted documented.tag ++
        " does not match inferred type " ++ quoted inferred.tag
  | unresolvedCall name => "Unresolved call to " ++ quoted name
  | argumentMismatch path name expected received =>
      "Wrong parameter type for " ++ quoted path ++ ": " ++ quoted name ++ " expected " ++
        quoted expected.tag ++ ", received " ++ quoted received.tag

/-- A type that would mend the problem. -/
def suggestion? : Finding → Option String
  | undefinedReturn _ suggestion => suggestion
  | _ => none

end Finding

namespace Problem

/-- The severity of the finding. -/
def severity (problem : Problem) : Severity :=
  problem.finding.severity

/-- The wording of the finding. -/
def message (problem : Problem) : String :=
  problem.finding.message

/-- A type that would mend the problem. -/
def suggestion? (problem : Problem) : Option String :=
  problem.finding.suggestion?

/-- The problem on one line. -/
def display (problem : Problem) : String :=
  problem.location.display ++ " " ++ problem.severity.display ++ ": " ++ problem.message ++
    match problem.suggestion? with
    | some suggestion => " (suggested: " ++ suggestion ++ ")"
    | none => ""

/-- One problem stands at or before another one: by file, and then by where it starts. -/
def isAtOrBefore (a b : Problem) : Bool :=
  a.location.filename < b.location.filename ||
    (a.location.filename = b.location.filename &&
      a.location.span.start ≤ b.location.span.start)

/-- Problems in the order of their places; those at one place keep their order. -/
def sort (problems : List Problem) : List Problem :=
  problems.mergeSort isAtOrBefore

end Problem

end TagCheck
