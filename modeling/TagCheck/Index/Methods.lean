import TagCheck.Index.Qualify

namespace TagCheck.Index

/-!
# Looking up methods

Instance methods are found along the ancestors of a namespace; whatever includes a module is an
`Object`, so a module's ancestors are followed by those of `Object`.  Class methods are found on the
class and the modules it is extended by, then on its superclasses, and at last among the instance
methods of `Class` or `Module`.

In one namespace the last definition of a name counts, and a nearer namespace hides the methods of
the same name further away.
-/

/-- A namespace and the modules that extend it, where class methods are found. -/
def classLevelSources (index : Index) (path : String) : List (String × Scope) :=
  (path, .classLevel) ::
    ((index.mixins path .extension).reverse.flatMap index.moduleAncestors).map (·, .instanceLevel)

/-- The namespaces and levels on which methods are looked up, in the order of the lookup. -/
def methodSources (index : Index) (path : String) : Scope → List (String × Scope)
  | .instanceLevel =>
      let own := index.ancestors path
      let beyond :=
        if index.namespaceKind? path = some .moduleNamespace then
          (index.ancestors "Object").filter (· ∉ own)
        else
          []
      (own ++ beyond).map (·, .instanceLevel)
  | .classLevel =>
      let metaclass :=
        if index.namespaceKind? path = some .moduleNamespace then "Module" else "Class"
      (index.superclassChain index.walkLimit [] path).flatMap index.classLevelSources ++
        (index.ancestors metaclass).map (·, .instanceLevel)

/-- The first pin of each name, given the names that were seen before. -/
def firstOfEachName (seen : List String) : List Pin → List Pin
  | [] => []
  | pin :: rest =>
      if pin.name ∈ seen then
        firstOfEachName seen rest
      else
        pin :: firstOfEachName (pin.name :: seen) rest

/-- All methods along the lookup, nearest first, and the last definition first. -/
def methodsInOrder (index : Index) (path : String) (scope : Scope) : List Pin :=
  (index.methodSources path scope).flatMap fun (owner, level) =>
    (index.ownMethods owner level).reverse

/-- The methods that can be called on a namespace, one of each name. -/
def methods (index : Index) (path : String) (scope : Scope) : List Pin :=
  firstOfEachName [] (index.methodsInOrder path scope)

/-- All methods of a name along the lookup, nearest first. -/
def methodStack (index : Index) (path name : String) (scope : Scope) : List Pin :=
  (index.methodSources path scope).flatMap fun (owner, level) =>
    (index.ownMethods owner level).reverse.filter (·.name = name)

/-- The method that a call of a name reaches. -/
def method? (index : Index) (path name : String) (scope : Scope) : Option Pin :=
  (index.methodSources path scope).findSome? fun (owner, level) =>
    (index.ownMethods owner level).reverse.find? (·.name = name)

/-- The method that a call with an explicit receiver reaches; writers are never hidden. -/
def publicMethod? (index : Index) (path name : String) (scope : Scope) : Option Pin :=
  (index.method? path name scope).filter fun pin =>
    pin.visibility != .privateAccess || name.toList.getLast? = some '='

/-- Constants and namespaces of a namespace and its ancestors, one of each name. -/
def constants (index : Index) (path : String) : List Pin :=
  firstOfEachName []
    (((index.ancestors path).flatMap index.members).filter (·.isNamespaceOrConstant))

/-- The namespaces and constants that a name refers to in a context. -/
def visiblePins (index : Index) (name context : String) : List Pin :=
  match index.qualify? name context with
  | some path => (index.pathPins path).filter (·.isNamespaceOrConstant)
  | none => []

/-- What belongs to a namespace: methods of both levels, constants, and its own variables. -/
def namespaceMembers (index : Index) (path : String) : List Pin :=
  index.methods path .instanceLevel ++ index.methods path .classLevel ++ index.constants path ++
    (index.members path).filter (!·.isNamespaceOrConstant)

/-- The methods that a method may take documentation from, nearest first. -/
def overridden (index : Index) (method : Pin) : List Pin :=
  index.methodStack method.closure.namespacePath method.name method.scope

/-- The documented return type of a method, its own or inherited, and where it was written. -/
def returnTag? (index : Index) (method : Pin) : Option (DocUnion × String) :=
  let tagOf (pin : Pin) : Option (DocUnion × String) :=
    if pin.declared.isDefined then some (pin.declared, pin.closure.namespacePath) else none
  match tagOf method with
  | some tag => some tag
  | none => (index.overridden method).findSome? tagOf

/-- The documented type of a parameter, the method's own or inherited, and where it was written. -/
def paramTag? (index : Index) (method : Pin) (name : String) : Option (DocUnion × String) :=
  let tagOf (pin : Pin) : Option (DocUnion × String) :=
    (pin.doc.paramType? name).map (·, pin.closure.namespacePath)
  match tagOf method with
  | some tag => some tag
  | none => (index.overridden method).findSome? tagOf

/--
The methods of an open namespace may not all be known: it is not declared, an ancestor has a
reference that cannot be resolved, or it answers to missing methods.
-/
def isOpen (index : Index) (path : String) : Bool :=
  path ≠ "" && !index.isNamespace path ||
    (index.ancestors path).any index.hasUnresolvedReference ||
    (index.method? path "method_missing" .instanceLevel).isSome

end TagCheck.Index
