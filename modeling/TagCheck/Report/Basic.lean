import TagCheck.Check.Problem
import TagCheck.Report.Json
import TagCheck.Settings

namespace TagCheck.Report

/-!
# Reports

A report tells the problems of all checked files, as lines for people or as a JSON array.
-/

/-- A position as it stands in a report. -/
def positionJson (position : Position) : Json :=
  .object [("line", .number position.line), ("column", .number position.column)]

/-- A problem as it stands in a report; a suggestion is mentioned only if there is one. -/
def problemJson (problem : Problem) : Json :=
  .object <|
    [("severity", .text problem.severity.display),
      ("message", .text problem.message),
      ("location", .object [
        ("filename", .text problem.location.filename),
        ("range", .object [
          ("start", positionJson problem.location.span.start),
          ("end", positionJson problem.location.span.stop)])])] ++
      (problem.suggestion?.map fun suggestion => ("suggestion", Json.text suggestion)).toList

/-- The last line of a report in lines. -/
def summary (problems : List Problem) (fileCount : Nat) : String :=
  (if problems.isEmpty then "No problems" else toString problems.length ++ " problems") ++
    " found in " ++ toString fileCount ++ " files."

/-- The report of the problems in so many files. -/
def render (format : ReportFormat) (problems : List Problem) (fileCount : Nat) : String :=
  match format with
  | .text =>
      String.join ((problems.map (·.display) ++ [summary problems fileCount]).map (· ++ "\n"))
  | .json => (Json.array (problems.map problemJson)).render 0 ++ "\n"

end TagCheck.Report
