import TagCheck.Text.Pieces

namespace TagCheck

/-!
# Names of paths

A path is named by a text with slashes.  Two names are alike if they have the same parts: a slash at
the end, slashes in a row and inner points do not count, but a point in front does.
-/

/-- A part of a path's name. -/
inductive PathPart where
  /-- The slash that an absolute name begins with. -/
  | root
  /-- A point in front. -/
  | here
  /-- Two points. -/
  | up
  | name (text : String)
  deriving Repr, DecidableEq

namespace PathPart

/-- The parts' kinds in their order. -/
def rank : PathPart → Nat
  | root => 0
  | here => 1
  | up => 2
  | name _ => 3

/-- One part stands before another one. -/
def isBefore : PathPart → PathPart → Bool
  | name a, name b => a < b
  | a, b => a.rank < b.rank

/-- The part that the text between two slashes names, if it counts. -/
def ofSegment? (segment : String) : Option PathPart :=
  match segment with
  | "" | "." => none
  | ".." => some up
  | text => some (name text)

end PathPart

namespace PathName

/-- The parts of a path's name. -/
def parts (path : String) : List PathPart :=
  match Text.pieces '/' path with
  | "" :: first :: rest => .root :: (first :: rest).filterMap PathPart.ofSegment?
  | "." :: rest => .here :: rest.filterMap PathPart.ofSegment?
  | segments => segments.filterMap PathPart.ofSegment?

/-- The order of names: by their first different parts; a shorter name goes first. -/
def isAtOrBefore : List PathPart → List PathPart → Bool
  | [], _ => true
  | _ :: _, [] => false
  | a :: as, b :: bs => if a = b then isAtOrBefore as bs else a.isBefore b

/-- The name of what is found below a path, given its own names. -/
def join (path : String) (below : List String) : String :=
  path ++ (if path.endsWith "/" then "" else "/") ++ "/".intercalate below

/-- Leave out each name that is like the one before it. -/
def dropRepeated : List String → List String
  | [] => []
  | path :: rest =>
      match dropRepeated rest with
      | [] => [path]
      | next :: others =>
          if parts path = parts next then path :: others else path :: next :: others

/-- Paths in the order of their names; of names that are alike the first one is kept. -/
def sortUnique (paths : List String) : List String :=
  dropRepeated (paths.mergeSort fun a b => isAtOrBefore (parts a) (parts b))

end PathName

end TagCheck
