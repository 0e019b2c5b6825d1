namespace TagCheck

/-!
# Documented types

The type expressions of documentation comments, such as `Array<String>, Hash{Symbol => Integer}?`.
A union is a list of alternatives, and each alternative may carry unions as parameters.  The empty
union is the undefined type: nothing is known about the value.

Unions are built without repeated alternatives; the first occurrence keeps its place.
-/

/-- One alternative of a documented type, with its parameters and its trailing question mark. -/
structure DocType where
  name : String
  /-- Positional parameters, as in `Array<String>`. -/
  ordered : List (List DocType)
  /-- Key parameters, as in `Hash{Symbol => String}`. -/
  keys : List (List DocType)
  /-- Value parameters, as in `Hash{Symbol => String}`. -/
  values : List (List DocType)
  nullable : Bool
  deriving Repr

/-- A union of alternatives; the empty one is the undefined type. -/
abbrev DocUnion := List DocType

namespace DocType

mutual

/-- Equality of alternatives is decided part by part. -/
def decideEq : (a b : DocType) → Decidable (a = b)
  | ⟨name, ordered, keys, values, nullable⟩, ⟨name', ordered', keys', values', nullable'⟩ =>
      if sameName : name = name' then
        if sameFlag : nullable = nullable' then
          match decideEqParameters ordered ordered' with
          | isFalse different => isFalse fun same => different (congrArg DocType.ordered same)
          | isTrue sameOrdered =>
              match decideEqParameters keys keys' with
              | isFalse different => isFalse fun same => different (congrArg DocType.keys same)
              | isTrue sameKeys =>
                  match decideEqParameters values values' with
                  | isFalse different =>
                      isFalse fun same => different (congrArg DocType.values same)
                  | isTrue sameValues =>
                      isTrue (by rw [sameName, sameFlag, sameOrdered, sameKeys, sameValues])
        else
          isFalse fun same => sameFlag (congrArg DocType.nullable same)
      else
        isFalse fun same => sameName (congrArg DocType.name same)

/-- Equality of unions is equality of their alternatives in order. -/
def decideEqUnion : (a b : List DocType) → Decidable (a = b)
  | [], [] => isTrue rfl
  | [], _ :: _ => isFalse nofun
  | _ :: _, [] => isFalse nofun
  | a :: as, b :: bs =>
      match decideEq a b with
      | isFalse different => isFalse fun same => different (List.cons.inj same).1
      | isTrue sameHead =>
          match decideEqUnion as bs with
          | isFalse different => isFalse fun same => different (List.cons.inj same).2
          | isTrue sameTail => isTrue (by rw [sameHead, sameTail])

/-- Equality of parameter lists is equality of their unions in order. -/
def decideEqParameters : (a b : List (List DocType)) → Decidable (a = b)
  | [], [] => isTrue rfl
  | [], _ :: _ => isFalse nofun
  | _ :: _, [] => isFalse nofun
  | a :: as, b :: bs =>
      match decideEqUnion a b with
      | isFalse different => isFalse fun same => different (List.cons.inj same).1
      | isTrue sameHead =>
          match decideEqParameters as bs with
          | isFalse different => isFalse fun same => different (List.cons.inj same).2
          | isTrue sameTail => isTrue (by rw [sameHead, sameTail])

end

instance : DecidableEq DocType := decideEq

/-- An alternative without parameters. -/
def named (name : String) : DocType :=
  ⟨name, [], [], [], false⟩

instance : Inhabited DocType := ⟨named ""⟩

/-- An alternative with positional parameters. -/
def withOrdered (name : String) (parameters : List DocUnion) : DocType :=
  ⟨name, parameters, [], [], false⟩

/-- An alternative with key and value parameters. -/
def withKeyed (name : String) (keys values : List DocUnion) : DocType :=
  ⟨name, [], keys, values, false⟩

/-- The type of a class or module itself: `Class<name>` or `Module<name>`. -/
def metaOf (name : String) (isModule : Bool) : DocType :=
  withOrdered (if isModule then "Module" else "Class") [[named name]]

/-- A duck type `#member`: any value that answers to the member. -/
def isDuck (type : DocType) : Bool :=
  type.name.toList.head? = some '#'

/-- The member a duck type asks for. -/
def duckMember? (type : DocType) : Option String :=
  match type.name.toList with
  | '#' :: member => some (String.ofList member)
  | _ => none

/-- The tag of a method that returns nothing of use. -/
def isVoid (type : DocType) : Bool :=
  type.name = "void"

/-- The tag that stands for the receiver. -/
def isSelf (type : DocType) : Bool :=
  type.name = "self"

/-- Either spelling of nil. -/
def isNil (type : DocType) : Bool :=
  type.name = "nil" || type.name = "NilClass"

/-- The tag of the two truth values. -/
def isBoolean (type : DocType) : Bool :=
  type.name = "Boolean"

/-- A placeholder that the receiver's parameters fill, such as `generic<T>`. -/
def isGeneric (type : DocType) : Bool :=
  type.name = "generic"

/-- The type of a class or module itself, with exactly one parameter that names it. -/
def isMeta (type : DocType) : Bool :=
  (type.name = "Class" || type.name = "Module") && type.ordered.length = 1

/-- At least one parameter list is not empty. -/
def isParameterized (type : DocType) : Bool :=
  !type.ordered.isEmpty || !type.keys.isEmpty || !type.values.isEmpty

/-- Names of containers whose positional parameters describe their elements. -/
def orderedContainers : List String :=
  ["Array", "Set", "Enumerable", "Enumerator", "Range"]

/-- Names of containers that hold values under keys. -/
def keyedContainers : List String :=
  ["Hash"]

/-- A known container that is written without parameters. -/
def parametersUnknown (type : DocType) : Bool :=
  !type.isParameterized &&
    (orderedContainers.contains type.name || keyedContainers.contains type.name)

/-- Tags that never name a namespace. -/
def isPseudo (type : DocType) : Bool :=
  type.isDuck || type.isVoid || type.isSelf || type.isBoolean || type.isGeneric ||
    ["nil", "undefined", "true", "false", "bool"].contains type.name

/-- A keyed container by its name, or by having value parameters. -/
def isKeyedContainer (type : DocType) : Bool :=
  keyedContainers.contains type.name || !type.values.isEmpty

/-- The class whose instance a literal's tag describes; every other name stands for itself. -/
def classOfLiteral (name : String) : String :=
  match name with
  | "nil" => "NilClass"
  | "true" => "TrueClass"
  | "false" => "FalseClass"
  | other => other

mutual

/-- The namespace a type refers to; for the type of a class itself it is that class. -/
def refersTo : DocType → String
  | ⟨name, ordered, _, _, _⟩ =>
      if name = "Class" || name = "Module" then
        (refersToOnly ordered).getD name
      else
        classOfLiteral name

/-- The namespace that the first alternative of a union refers to. -/
def refersToFirst : List DocType → Option String
  | [] => none
  | type :: _ => some (refersTo type)

/-- The namespace that a single parameter refers to; none if there are more or fewer. -/
def refersToOnly : List (List DocType) → Option String
  | [parameter] => refersToFirst parameter
  | _ => none

end

/-- The instance type inside `Class<Foo>`; none for any other type. -/
def instanceType? (type : DocType) : Option DocUnion :=
  if type.isMeta then type.ordered.head? else none

end DocType

namespace DocUnion

/-- Append the alternatives that are not there yet, keeping the order of first occurrence. -/
def addAll (union : DocUnion) (more : List DocType) : DocUnion :=
  more.foldl (fun found type => if type ∈ found then found else found ++ [type]) union

/-- The union of a list of alternatives. -/
def ofList (alternatives : List DocType) : DocUnion :=
  addAll [] alternatives

/-- The union of several unions. -/
def join (unions : List DocUnion) : DocUnion :=
  ofList unions.flatten

/-- The union of two unions. -/
def union (a b : DocUnion) : DocUnion :=
  join [a, b]

/-- The union of one alternative without parameters. -/
def named (name : String) : DocUnion :=
  [DocType.named name]

/-- Nothing is known about the value. -/
def isUndefined (union : DocUnion) : Bool :=
  union.isEmpty

/-- Something is known about the value. -/
def isDefined (union : DocUnion) : Bool :=
  !union.isEmpty

/-- Some alternative is `void`. -/
def isVoid (union : DocUnion) : Bool :=
  union.any DocType.isVoid

/-- All alternatives are duck types, and there is one. -/
def isDuck (union : DocUnion) : Bool :=
  !union.isEmpty && union.all DocType.isDuck

/-- The union is `self` alone. -/
def isSelf : DocUnion → Bool
  | [type] => type.isSelf
  | _ => false

/-- The union is the type of one class or module. -/
def isMeta : DocUnion → Bool
  | [type] => type.isMeta
  | _ => false

/-- The union admits nil, by an alternative or by a question mark. -/
def isNullable (union : DocUnion) : Bool :=
  union.any fun type => type.nullable || type.isNil

/-- The namespace of the first alternative; empty for the undefined type. -/
def refersTo (union : DocUnion) : String :=
  (union.head?.map DocType.refersTo).getD ""

/-- Class types become their instance types; all others are kept. -/
def instanceType (union : DocUnion) : DocUnion :=
  ofList (union.flatMap fun type => type.instanceType?.getD [type])

end DocUnion

namespace DocType

/-- What indexing a container yields: the value type of a keyed one, else the elements. -/
def elementType (type : DocType) : DocUnion :=
  if !type.values.isEmpty then
    DocUnion.join type.values
  else
    match keyedContainers.contains type.name, type.ordered with
    | true, [_, value] => value
    | _, _ => DocUnion.join type.ordered

/-- The key type of a keyed container; undefined for all others. -/
def keyType (type : DocType) : DocUnion :=
  if !type.keys.isEmpty then
    DocUnion.join type.keys
  else
    match keyedContainers.contains type.name, type.ordered with
    | true, [key, _] => key
    | _, _ => []

end DocType

end TagCheck
