import TagCheck.DocType.Substitution
import TagCheck.Index.Ancestry

namespace TagCheck.Index

/-!
# What a name refers to

A constant that is named in some context is searched in the lexical nesting of the context, then
in its ancestors, and then at the top level.  The further names of a path are searched in the
namespace found so far and in its ancestors.
-/

/-- The lexical nesting of a context: as it is declared, or else as its path tells. -/
def gatesOf (index : Index) (context : String) : List String :=
  match (index.pathPins context).find? (·.isNamespace) with
  | some pin => pin.gates
  | none => ConstantPath.enclosing context ++ [""]

/-- The declared path of a single name. -/
def qualifyHead? (index : Index) (name context : String) : Option String :=
  let inGates := ((index.gatesOf context).filter (· ≠ "")).map (joinPath · name)
  let inAncestors (_ : Unit) : List String :=
    ((index.ancestors context).filter fun path => path ≠ "" && path ≠ "Object").map
      (joinPath · name)
  match inGates.find? index.isDeclared with
  | some path => some path
  | none =>
      match (inAncestors ()).find? index.isDeclared with
      | some path => some path
      | none => if index.isDeclared name then some name else none

/-- The declared path of a name inside a namespace or one of its ancestors. -/
def qualifyMember? (index : Index) (path name : String) : Option String :=
  if index.isDeclared (joinPath path name) then
    some (joinPath path name)
  else
    ((index.ancestors path).map (joinPath · name)).find? index.isDeclared

/-- The declared path of a path of names without double colons in front. -/
def qualifyRelative? (index : Index) (name context : String) : Option String :=
  match ConstantPath.splitFirst? name with
  | none => index.qualifyHead? name context
  | some (head, rest) => do
      let found ← index.qualifyHead? head context
      (ConstantPath.parts rest).foldlM index.qualifyMember? found

/-- The declared path of a name; each pair of double colons in front leads to the top level. -/
def qualifyWithin? (index : Index) : Nat → String → String → Option String
  | 0, _, _ => none
  | limit + 1, name, context =>
      let name := Text.trimmed name
      if name = "" then
        none
      else
        match ConstantPath.absolute? name with
        | some absolute => index.qualifyWithin? limit absolute ""
        | none => index.qualifyRelative? name context

/-- The declared path that a name refers to in a context. -/
def qualify? (index : Index) (name context : String) : Option String :=
  index.qualifyWithin? (name.length + 1) name context

/-- The qualified name of a documented type; names that refer to nothing are kept. -/
def qualifyTypeName (index : Index) (context name : String) : String :=
  let type := DocType.named name
  if type.isNil then
    "NilClass"
  else if type.isPseudo then
    name
  else
    (index.qualify? name context).getD name

mutual

/-- Qualify the name of an alternative and all names in its parameters. -/
def qualifyAlternative (index : Index) (context : String) : DocType → DocType
  | ⟨name, ordered, keys, values, nullable⟩ =>
      ⟨index.qualifyTypeName context name, qualifyParameters index context ordered,
        qualifyParameters index context keys, qualifyParameters index context values, nullable⟩

/-- Qualify all alternatives of a union. -/
def qualifyAlternatives (index : Index) (context : String) : List DocType → List DocType
  | [] => []
  | type :: rest =>
      qualifyAlternative index context type :: qualifyAlternatives index context rest

/-- Qualify all unions of a parameter list. -/
def qualifyParameters (index : Index) (context : String) :
    List (List DocType) → List (List DocType)
  | [] => []
  | parameter :: rest =>
      DocUnion.ofList (qualifyAlternatives index context parameter) ::
        qualifyParameters index context rest

end

/-- Qualify every name in a type. -/
def qualifyType (index : Index) (type : DocUnion) (context : String) : DocUnion :=
  .ofList (index.qualifyAlternatives context type)

/-- Every name in a type refers to something. -/
def isResolvable (index : Index) (type : DocUnion) (context : String) : Bool :=
  !type.contains fun item =>
    !item.isPseudo && !item.isNil && (index.qualify? item.name context).isNone

end TagCheck.Index
