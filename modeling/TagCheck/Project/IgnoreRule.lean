import TagCheck.Project.Glob

namespace TagCheck

/-!
# Rules for leaving out paths

A rule is a line of an ignore file: a pattern, with marks for exceptions, for folders only and for
patterns that are meant from the rule's own folder.  A pattern with a slash describes the whole path
from that folder, and a pattern without one describes the last name.
-/

/-- What the rules of one place say about a path. -/
inductive Verdict where
  /-- Leave the path out. -/
  | ignored
  /-- Keep the path, even if its name begins with a point. -/
  | kept
  /-- No rule describes the path. -/
  | silent
  deriving Repr, DecidableEq

/-- The first verdict unless it is silent, else the second one. -/
def Verdict.orElse : Verdict → Verdict → Verdict
  | silent, other => other
  | verdict, _ => verdict

/-- A rule for leaving out paths, or for keeping them. -/
structure IgnoreRule where
  glob : Glob
  isException : Bool
  /-- The rule is about folders alone. -/
  onlyFolders : Bool
  deriving Repr

namespace IgnoreRule

/-- White space at the end of a line does not count, unless its first blank is escaped. -/
def trimLine (line : List Char) : List Char :=
  if [' ', '\\'].isPrefixOf line.reverse then line else Text.trimEnd line

/-- A pattern that stands for its own text from any folder below. -/
def anywhere (pattern : String) : String :=
  if pattern.startsWith "**/" || pattern = "**" then pattern else "**/" ++ pattern

/-- The rule of a pattern that no marks precede; none if the pattern is malformed. -/
def ofPattern? (isException isAnchored : Bool) (pattern : List Char) : Option IgnoreRule := do
  let (pattern, onlyFolders) :=
    match pattern.reverse with
    | '/' :: '\\' :: before => (before.reverse, true)
    | '/' :: before => (before.reverse, true)
    | _ => (pattern, false)
  let text := String.ofList pattern
  let text := if isAnchored || pattern.contains '/' then text else anywhere text
  let text := if text.endsWith "/**" then text ++ "/*" else text
  return ⟨← Glob.ofString? text, isException, onlyFolders⟩

/-- The rule of a pattern that a slash may anchor. -/
def ofAnchored? (isException : Bool) : List Char → Option IgnoreRule
  | '/' :: pattern => ofPattern? isException true pattern
  | pattern => ofPattern? isException false pattern

/-- The rule on a line of an ignore file; none for comments, blank lines and malformed patterns. -/
def ofLine? (line : String) : Option IgnoreRule :=
  if line.startsWith "#" then
    none
  else
    match trimLine line.toList with
    | [] => none
    | '\\' :: '!' :: pattern => ofPattern? false false ('!' :: pattern)
    | '\\' :: '#' :: pattern => ofPattern? false false ('#' :: pattern)
    | '!' :: pattern => ofAnchored? true pattern
    | pattern => ofAnchored? false pattern

/-- The rules of an ignore file; a byte order mark may stand in front. -/
def ofLines : List String → List IgnoreRule
  | [] => []
  | first :: rest =>
      let first :=
        match first.toList with
        | '\uFEFF' :: line => String.ofList line
        | _ => first
      (first :: rest).filterMap ofLine?

/-- The rule that leaves out what a pattern describes; none if the pattern is malformed. -/
def ofExclusion? (pattern : String) : Option IgnoreRule :=
  ofAnchored? false (trimLine pattern.toList)

/-- The rule is about a path. -/
def concerns (rule : IgnoreRule) (path : List String) (isFolder : Bool) : Bool :=
  (isFolder || !rule.onlyFolders) && rule.glob.describes ("/".intercalate path)

/-- What rules say about a path: the last one that concerns it decides. -/
def verdict (rules : List IgnoreRule) (path : List String) (isFolder : Bool) : Verdict :=
  match rules.reverse.find? (·.concerns path isFolder) with
  | some rule => if rule.isException then .kept else .ignored
  | none => .silent

end IgnoreRule

end TagCheck
