import TagCheck.CoreLibrary.Basic
import TagCheck.Index.Groups
import TagCheck.Outline.Path

namespace TagCheck

/-!
# The index of declarations

All pins of a program behind those of the core library, with tables for looking them up.  Names of
superclasses and mixins stand here as they were written.
-/

/-- All pins, and the ways to look them up. -/
structure Index where
  /-- All pins, the core library's first. -/
  pins : List Pin
  /-- All pins at a path. -/
  pathPins : String → List Pin
  /-- The methods that a namespace itself has on a level, in the order of their definition. -/
  ownMethods : String → Scope → List Pin
  /-- The variables, constants and namespaces inside a namespace. -/
  members : String → List Pin
  /-- The mixin calls in a namespace. -/
  mixinCalls : String → List Pin

namespace Index

/-- The namespace and the level that a method belongs to. -/
def methodKey? (pin : Pin) : Option (String × Scope) :=
  match pin.kind with
  | .method detail => some (pin.closure.namespacePath, detail.scope)
  | _ => none

/-- The namespace that a variable, a constant or a namespace is a member of. -/
def memberKey? (pin : Pin) : Option String :=
  match pin.kind with
  | .namespacePin .. => if pin.path = "" then none else some pin.closure.namespacePath
  | .instanceVariable _ | .classVariable _ | .constant _ => some pin.closure.namespacePath
  | _ => none

/-- The namespace that a mixin call stands in. -/
def referenceKey? (pin : Pin) : Option String :=
  match pin.kind with
  | .reference .. => some pin.closure.namespacePath
  | _ => none

end Index

/-- Pins, and tables of them by the keys under which they are looked up. -/
structure PinTables where
  pins : List Pin
  byPath : Groups String Pin
  /-- Methods by the namespace and the level they belong to. -/
  methodTable : Groups (String × Scope) Pin
  /-- Variables, constants and namespaces by the namespace around them. -/
  memberTable : Groups String Pin
  /-- Mixin calls by the namespace they stand in. -/
  referenceTable : Groups String Pin

namespace PinTables

/-- Nothing is declared. -/
def empty : PinTables :=
  ⟨[], .empty, .empty, .empty, .empty⟩

/-- Add pins behind all others. -/
def addAll (tables : PinTables) (pins : List Pin) : PinTables where
  pins := tables.pins ++ pins
  byPath := tables.byPath.addAll (fun pin => some pin.path) pins
  methodTable := tables.methodTable.addAll Index.methodKey? pins
  memberTable := tables.memberTable.addAll Index.memberKey? pins
  referenceTable := tables.referenceTable.addAll Index.referenceKey? pins

/-- The core library. -/
def core : PinTables :=
  empty.addAll CoreLibrary.pins

/-- Look pins up in tables. -/
def index (tables : PinTables) : Index where
  pins := tables.pins
  pathPins path := tables.byPath.find path
  ownMethods path scope := tables.methodTable.find (path, scope)
  members path := tables.memberTable.find path
  mixinCalls path := tables.referenceTable.find path

end PinTables

namespace Index

/-- The core library and further pins. -/
def ofPins (pins : List Pin) : Index :=
  (PinTables.core.addAll pins).index

/-- Look pins up in a list of all of them. -/
def ofList (pins : List Pin) : Index where
  pins := pins
  pathPins path := pins.filter fun pin => pin.path = path
  ownMethods path scope := pins.filter fun pin => methodKey? pin = some (path, scope)
  members path := pins.filter fun pin => memberKey? pin = some path
  mixinCalls path := pins.filter fun pin => referenceKey? pin = some path

/-- Looking pins up in tables is searching the list of all pins. -/
theorem index_addAll
    (first second : List Pin) :
    ((PinTables.empty.addAll first).addAll second).index = ofList (first ++ second) := by
  simp only [PinTables.empty, PinTables.addAll, PinTables.index, ofList,
    Groups.find_addAll, Groups.find_empty, List.nil_append, List.filter_append,
    Option.some.injEq]

/-- The core library and further pins are searched like one list. -/
theorem ofPins_eq_ofList
    (pins : List Pin) :
    ofPins pins = ofList (CoreLibrary.pins ++ pins) :=
  index_addAll CoreLibrary.pins pins

/-- The mixin calls of a kind in a namespace. -/
def references (index : Index) (path : String) (kind : ReferenceKind) : List Pin :=
  (index.mixinCalls path).filter fun pin =>
    match pin.kind with
    | .reference referenceKind _ => referenceKind = kind
    | _ => false

/-- The kind of namespace that a pin declares. -/
def declaredKind? (pin : Pin) : Option NamespaceKind :=
  match pin.kind with
  | .namespacePin kind _ _ => some kind
  | _ => none

/-- The kind of the namespace at a path, as it was declared first; none if there is none. -/
def namespaceKind? (index : Index) (path : String) : Option NamespaceKind :=
  (index.pathPins path).findSome? declaredKind?

/-- A namespace is declared at the path. -/
def isNamespace (index : Index) (path : String) : Bool :=
  (index.namespaceKind? path).isSome

/-- A constant is assigned at the path. -/
def isConstant (index : Index) (path : String) : Bool :=
  (index.pathPins path).any (·.isConstant)

/-- A namespace or a constant is declared at the path. -/
def isDeclared (index : Index) (path : String) : Bool :=
  index.isNamespace path || index.isConstant path

/-- The superclass that a pin writes, with the lexical nesting around its definition. -/
def writtenSuperclass? (pin : Pin) : Option (String × List String) :=
  match pin.kind with
  | .namespacePin _ (some superclass) gates => some (superclass, gates.drop 1)
  | _ => none

/-- The first superclass that is written for a class, with the nesting around it. -/
def superclassReference? (index : Index) (path : String) : Option (String × List String) :=
  (index.pathPins path).findSome? writtenSuperclass?

/-- All global variables. -/
def globals (index : Index) : List Pin :=
  index.pins.filter fun pin =>
    match pin.kind with
    | .globalVariable _ => true
    | _ => false

/-- The instance variables of a namespace on a level. -/
def instanceVariables (index : Index) (path : String) (scope : Scope) : List Pin :=
  (index.members path).filter fun pin => pin.isInstanceVariable && pin.closure.scope = scope

/-- The class variables of a namespace. -/
def classVariables (index : Index) (path : String) : List Pin :=
  (index.members path).filter (·.isClassVariable)

end Index

end TagCheck
