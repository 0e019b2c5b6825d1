import TagCheck.Inference.Memo

namespace TagCheck

/-!
# What names and calls stand for

The rules for `self`, constants, variables and method calls.  Where they need the type of a pin,
they ask for it.
-/

/-- What one alternative of a receiver answers to a call. -/
structure CallAnswer where
  type : Option DocUnion
  pin : Option Pin

namespace Snapshot

/-- The type of a class or module itself. -/
def metaType (snapshot : Snapshot) (path : String) : DocType :=
  .metaOf path (snapshot.index.namespaceKind? path = some .moduleNamespace)

/-- The type of `self` inside a closure; at the top level it is an `Object`. -/
def selfType (snapshot : Snapshot) (closure : Closure) : DocUnion :=
  if closure.namespacePath = "" then
    .named "Object"
  else
    match closure.scope with
    | .instanceLevel => .named closure.namespacePath
    | .classLevel => [snapshot.metaType closure.namespacePath]

/-- `self` inside a closure. -/
def selfReference (snapshot : Snapshot) (closure : Closure) : Inference where
  type := snapshot.selfType closure
  pins := ((snapshot.index.pathPins closure.namespacePath).find? (·.isNamespace)).toList
  unresolved := none

/--
A method's type as its receiver sees it: `self` and generic placeholders are filled in, and the
names that are left are qualified in the method's namespace.
-/
def specialize (snapshot : Snapshot) (type : DocUnion) (receiver : DocType) (owner : String) :
    DocUnion :=
  snapshot.index.qualifyType ((type.selfTo [receiver]).resolveGenerics receiver) owner

/-- The level on which a receiver's methods are looked up. -/
def levelOf (receiver : DocType) : Scope :=
  if receiver.isMeta then .classLevel else .instanceLevel

/-- The method of a receiver that a call reaches; explicit receivers hide private methods. -/
def calledMethod? (snapshot : Snapshot) (receiver : DocType) (name : String)
    (isExplicit : Bool) : Option Pin :=
  if isExplicit then
    snapshot.index.publicMethod? receiver.refersTo name (levelOf receiver)
  else
    snapshot.index.method? receiver.refersTo name (levelOf receiver)

/-- The constructor of a class, unless it is the one that all objects have. -/
def initializer? (snapshot : Snapshot) (path : String) : Option Pin :=
  (snapshot.index.method? path "initialize" .instanceLevel).filter
    (·.closure.namespacePath ≠ "BasicObject")

/-- The method that makes instances of a class. -/
def constructor? (snapshot : Snapshot) (path : String) : Option Pin :=
  match snapshot.initializer? path with
  | some pin => some pin
  | none => snapshot.index.method? path "new" .classLevel

/-- A constant in a closure.  A namespace has its own type, whatever is assigned to its name. -/
def constant (snapshot : Snapshot) (closure : Closure) (name : String) : Inquiry Inference := do
  match snapshot.index.qualify? name closure.namespacePath with
  | none => return .ofUnresolved name
  | some path =>
      let pins := (snapshot.index.pathPins path).filter (·.isNamespaceOrConstant)
      match pins.find? (·.isNamespace) with
      | some pin => return ⟨pin.declared, pins, none⟩
      | none => return ⟨← Inquiry.unionOf pins, pins, none⟩

/-- A variable with all its assignments. -/
def variableOf (name : String) (pins : List Pin) : Inquiry Inference := do
  if pins.isEmpty then
    return .ofUnresolved name
  else
    return ⟨← Inquiry.unionOf pins, pins, none⟩

/-- An instance variable in a closure. -/
def instanceVariable (snapshot : Snapshot) (closure : Closure) (name : String) :
    Inquiry Inference :=
  variableOf name
    ((snapshot.index.instanceVariables closure.namespacePath closure.scope).filter
      (·.name = name))

/-- A class variable in a closure. -/
def classVariable (snapshot : Snapshot) (closure : Closure) (name : String) :
    Inquiry Inference :=
  variableOf name
    ((snapshot.index.classVariables closure.namespacePath).filter (·.name = name))

/-- A global variable. -/
def globalVariable (snapshot : Snapshot) (name : String) : Inquiry Inference :=
  variableOf name (snapshot.index.globals.filter (·.name = name))

/-- What one alternative of a receiver answers to a call; duck types and placeholders are silent. -/
def callAlternative (snapshot : Snapshot) (name : String) (isExplicit : Bool)
    (receiver : DocType) : Inquiry CallAnswer := do
  if receiver.isDuck || receiver.isVoid || receiver.isGeneric then
    return ⟨none, none⟩
  else if receiver.isMeta && name = "new" then
    return ⟨some (receiver.instanceType?.getD []), snapshot.constructor? receiver.refersTo⟩
  else
    match snapshot.calledMethod? receiver name isExplicit with
    | some method =>
        let type ← Inquiry.typeOf method
        return ⟨some (snapshot.specialize type receiver method.closure.namespacePath), some method⟩
    | none =>
        if name = "class" && !receiver.isMeta then
          return ⟨some [snapshot.metaType receiver.refersTo], none⟩
        else
          return ⟨none, none⟩

/-- A call of a method on every alternative of a receiver. -/
def callMethod (snapshot : Snapshot) (receiver : DocUnion) (name : String) (isExplicit : Bool) :
    Inquiry Inference := do
  let answers ← receiver.mapM (snapshot.callAlternative name isExplicit)
  let types := answers.filterMap (·.type)
  let pins := answers.filterMap (·.pin)
  if pins.isEmpty && types.isEmpty then
    return .ofUnresolved name
  else
    return ⟨.join types, pins, none⟩

/-- A bare word: the local that it names, or else a method of `self`. -/
def word (snapshot : Snapshot) (closure : Closure) (locals : List Pin) (name : String) :
    Inquiry Inference := do
  match locals.reverse.find? (·.name = name) with
  | some found => return ⟨← Inquiry.typeOf found, [found], none⟩
  | none => snapshot.callMethod (snapshot.selfType closure) name false

/-- What one alternative of a receiver yields under an index. -/
def indexAlternative (snapshot : Snapshot) (receiver : DocType) :
    Inquiry (DocUnion × List Pin) := do
  if receiver.isParameterized && !receiver.isMeta then
    return (receiver.elementType,
      (snapshot.index.method? receiver.refersTo "[]" .instanceLevel).toList)
  else
    let call ← snapshot.callMethod [receiver] "[]" true
    return (call.type, call.pins)

/-- An index access to every alternative of a receiver. -/
def indexInto (snapshot : Snapshot) (receiver : DocUnion) : Inquiry Inference := do
  let answers ← receiver.mapM snapshot.indexAlternative
  let pins := answers.flatMap (·.2)
  if pins.isEmpty && answers.all (·.1.isUndefined) then
    return .ofUnresolved "[]"
  else
    return ⟨.join (answers.map (·.1)), pins, none⟩

end Snapshot

end TagCheck
