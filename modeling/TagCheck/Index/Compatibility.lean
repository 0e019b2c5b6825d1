import TagCheck.Index.Methods

namespace TagCheck

/-!
# Which types fit where another one is documented

Every alternative of the actual type has to fit some alternative of the expected one.  What cannot
be known fits: undefined types, duck types and placeholders as actual types, and names that refer
to nothing.
-/

namespace DocType

mutual

/-- How deeply parameters are nested, counting the alternative itself. -/
def depth : DocType → Nat
  | ⟨_, ordered, keys, values, _⟩ =>
      max (depthOfParameters ordered) (max (depthOfParameters keys) (depthOfParameters values)) + 1

/-- The greatest depth among alternatives. -/
def depthOfUnion : List DocType → Nat
  | [] => 0
  | type :: rest => max (depth type) (depthOfUnion rest)

/-- The greatest depth among parameters. -/
def depthOfParameters : List (List DocType) → Nat
  | [] => 0
  | parameter :: rest => max (depthOfUnion parameter) (depthOfParameters rest)

end

end DocType

namespace Index

/-- A value of the type has the public method, as far as its methods are known. -/
def respondsTo (index : Index) (actual : DocType) (member : String) : Bool :=
  let path := if actual.isNil then "NilClass" else actual.refersTo
  let isSomeInclusion :=
    !actual.isMeta && index.namespaceKind? path = some .moduleNamespace
  actual.isDuck || actual.isSelf || actual.isGeneric || index.isOpen path || isSomeInclusion ||
    (index.publicMethod? path member
      (if actual.isMeta then .classLevel else .instanceLevel)).isSome

/-- The class that a name in a type refers to, literals included. -/
def qualifyClass? (index : Index) (name context : String) : Option String :=
  match name with
  | "nil" => some "NilClass"
  | "true" => some "TrueClass"
  | "false" => some "FalseClass"
  | _ => index.qualify? name context

/-- The expected union takes values of any type. -/
def acceptsAll (expected : DocUnion) : Bool :=
  expected.any fun type => ["Object", "BasicObject", "undefined"].contains type.name

/--
An actual alternative fits an expected one.  `acceptsNil` says whether the whole expected union
takes nil, and `fits` compares the types of parameters.
-/
def alternativeFits (index : Index) (context : String) (acceptsNil : Bool)
    (fits : DocUnion → DocUnion → Bool) (expected actual : DocType) : Bool :=
  match expected.duckMember? with
  | some member => index.respondsTo actual member
  | none =>
      if actual.isDuck || expected.isSelf || expected.isGeneric || actual.isGeneric then
        true
      else if actual.isNil then
        expected.isNil || acceptsNil
      else if expected.isBoolean then
        ["Boolean", "TrueClass", "FalseClass", "true", "false"].contains actual.name
      else if actual.isBoolean then
        ["TrueClass", "FalseClass"].contains expected.name
      else
        match index.qualifyClass? expected.name context, index.qualifyClass? actual.name context with
        | some expectedPath, some actualPath =>
            if expectedPath ≠ actualPath && !(index.ancestors actualPath).contains expectedPath then
              false
            else if !expected.isParameterized || !actual.isParameterized then
              true
            else if expected.isKeyedContainer || actual.isKeyedContainer then
              fits expected.keyType actual.keyType && fits expected.elementType actual.elementType
            else
              fits expected.elementType actual.elementType
        | _, _ => true

/-- Compatibility of types whose parameters are nested to a limited depth. -/
def isCompatibleWithin (index : Index) (context : String) : Nat → DocUnion → DocUnion → Bool
  | 0, _, _ => true
  | limit + 1, expected, actual =>
      expected.isUndefined || actual.isUndefined || acceptsAll expected ||
        actual.all fun a =>
          expected.any fun e =>
            index.alternativeFits context expected.isNullable
              (index.isCompatibleWithin context limit) e a

/-- A value of the actual type may stand where the expected type is documented. -/
def isCompatible (index : Index) (expected actual : DocUnion) (context : String) : Bool :=
  index.isCompatibleWithin context (DocType.depthOfUnion expected + 1) expected actual

end Index

end TagCheck
