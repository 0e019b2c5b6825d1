import TagCheck.Outline.Pin
import TagCheck.Text.Pieces

namespace TagCheck

/-!
# Paths

A namespace is named by the path of constants that leads to it from the top level, whose own path
is empty.  A method is named by the path of its namespace and its name.
-/

/-- The path of a method: a number sign before instance methods, a point before class methods. -/
def methodPath (namespacePath name : String) : Scope → String
  | .instanceLevel => namespacePath ++ "#" ++ name
  | .classLevel => namespacePath ++ "." ++ name

/-- The path of a name inside a namespace; at the top level it is the name itself. -/
def joinPath (namespacePath name : String) : String :=
  if namespacePath = "" then name else namespacePath ++ "::" ++ name

namespace ConstantPath

/-- What stands behind the double colons that begin an absolute name. -/
def absolute? (name : String) : Option String :=
  match name.toList with
  | ':' :: ':' :: rest => some (String.ofList rest)
  | _ => none

/-- What stands before and behind the first double colons. -/
def splitFirstChars? : List Char → Option (List Char × List Char)
  | [] => none
  | [_] => none
  | ':' :: ':' :: rest => some ([], rest)
  | c :: rest => (splitFirstChars? rest).map fun (before, behind) => (c :: before, behind)

/-- What stands before and behind the last double colons. -/
def splitLastChars? : List Char → Option (List Char × List Char)
  | [] => none
  | c :: rest =>
      match splitLastChars? rest with
      | some (before, behind) => some (c :: before, behind)
      | none =>
          match c, rest with
          | ':', ':' :: behind => some ([], behind)
          | _, _ => none

/-- The pieces between double colons, found from the left; there is always at least one. -/
def partsOfChars : List Char → List (List Char)
  | [] => [[]]
  | ':' :: ':' :: rest => [] :: partsOfChars rest
  | c :: rest =>
      match partsOfChars rest with
      | [] => [[c]]
      | part :: parts => (c :: part) :: parts

/-- The first name of a path and the path inside it. -/
def splitFirst? (path : String) : Option (String × String) :=
  (splitFirstChars? path.toList).map fun (before, behind) =>
    (String.ofList before, String.ofList behind)

/-- The namespace around a path and its last name. -/
def splitLast? (path : String) : Option (String × String) :=
  (splitLastChars? path.toList).map fun (before, behind) =>
    (String.ofList before, String.ofList behind)

/-- The names along a path. -/
def parts (path : String) : List String :=
  (partsOfChars path.toList).map String.ofList

/-- The first so many of a path and the paths around it, innermost first, without the root. -/
def enclosingWithin : Nat → List Char → List String
  | 0, _ => []
  | limit + 1, path =>
      if path = [] then
        []
      else
        String.ofList path ::
          match splitLastChars? path with
          | some (before, _) => enclosingWithin limit before
          | none => []

/-- A path and the paths of all namespaces around it, innermost first, without the root. -/
def enclosing (path : String) : List String :=
  enclosingWithin path.length path.toList

end ConstantPath

end TagCheck
