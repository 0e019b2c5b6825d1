import TagCheck.Docstring
import TagCheck.Tree.Node

namespace TagCheck

/-!
# Pins

A pin stands for one place where a name is declared: a namespace, a method, a variable, a
constant, a parameter, or a mixin call.  A pin refers to the scope that owns it by path.

Every pin of a source has its own identity, so that two declarations which agree in all their data
are still told apart.
-/

/-- What `self` is: an instance, or the class or module itself. -/
inductive Scope where
  | instanceLevel
  | classLevel
  deriving Repr, DecidableEq, Hashable

/-- Who may call a method. -/
inductive Visibility where
  | publicAccess
  | protectedAccess
  | privateAccess
  deriving Repr, DecidableEq

/-- Classes have a superclass and instances; modules have neither. -/
inductive NamespaceKind where
  | classNamespace
  | moduleNamespace
  deriving Repr, DecidableEq

/-- How a parameter takes arguments. -/
inductive ParameterKind where
  | required
  | optional
  | splat
  | keyword
  | optionalKeyword
  | doubleSplat
  | block
  deriving Repr, DecidableEq

namespace ParameterKind

/-- Rest parameters take any number of arguments. -/
def isRest : ParameterKind → Bool
  | splat | doubleSplat => true
  | _ => false

/-- Parameters that take an argument by its name. -/
def isKeyword : ParameterKind → Bool
  | keyword | optionalKeyword => true
  | _ => false

/-- Parameters that take one argument by its position. -/
def isPositional : ParameterKind → Bool
  | required | optional => true
  | _ => false

end ParameterKind

/-- The ways in which a namespace takes over the methods of a module. -/
inductive ReferenceKind where
  | inclusion
  | extension
  | prepending
  deriving Repr, DecidableEq

/-- The scope that owns a pin. -/
structure Closure where
  /-- Path of the owning namespace or method. -/
  path : String
  /-- The enclosing namespace. -/
  namespacePath : String
  /-- What `self` is inside the owner. -/
  scope : Scope
  deriving Repr, DecidableEq

/-- The top level, where `self` is an instance. -/
def Closure.root : Closure :=
  ⟨"", "", .instanceLevel⟩

/-- Where a local variable or a parameter can be seen. -/
structure LocalScope where
  /-- The enclosing block, or the hard scope outside of blocks. -/
  presence : Span
  /-- The enclosing method, class, module or program. -/
  hardScope : Span
  visibleFrom : Position
  deriving Repr, DecidableEq

/--
A local can be seen inside its presence, from the position where it becomes visible, in code whose
innermost hard scope is its own.
-/
def LocalScope.isVisible (scope : LocalScope) (position : Position) (hardScope : Span) : Bool :=
  scope.presence.contains position && scope.hardScope = hardScope && scope.visibleFrom ≤ position

/-- The identity of a pin: the number of its source and its number within that source. -/
structure PinId where
  source : Nat
  serial : Nat
  deriving Repr, DecidableEq

/-- What all pins have, whatever they declare. -/
structure PinOf (Kind : Type) where
  id : PinId
  name : String
  path : String
  closure : Closure
  location : Location
  /-- The documentation comment above the declaration. -/
  comments : String
  /-- The type that is known without looking at code. -/
  declared : DocUnion
  kind : Kind
  deriving Repr

/-- What a parameter declares. -/
structure ParameterDetail where
  kind : ParameterKind
  /-- Place in the parameter list. -/
  index : Nat
  scope : LocalScope
  deriving Repr

/-- The pin of a parameter. -/
abbrev ParameterPin := PinOf ParameterDetail

/-- What a method declares. -/
structure MethodDetail where
  scope : Scope
  visibility : Visibility
  parameters : List ParameterPin
  /-- The method reads or writes an attribute, and has no body. -/
  isAttribute : Bool
  /-- The definition, for methods that have one. -/
  node : Option SyntaxNode
  deriving Repr

/-- What a pin declares. -/
inductive PinKind where
  /-- A class or a module; the gates are its lexical nesting, innermost first, down to the root. -/
  | namespacePin (kind : NamespaceKind) (superclass : Option String) (gates : List String)
  | method (detail : MethodDetail)
  | parameter (detail : ParameterDetail)
  | localVariable (assignment : Option SyntaxNode) (scope : LocalScope)
  | instanceVariable (assignment : Option SyntaxNode)
  | classVariable (assignment : Option SyntaxNode)
  | globalVariable (assignment : Option SyntaxNode)
  | constant (assignment : Option SyntaxNode)
  /-- A module named in a mixin call, with the lexical nesting of the call. -/
  | reference (kind : ReferenceKind) (gates : List String)
  /-- Another pin seen from a receiver, which gives it a type of its own. -/
  | proxy
  deriving Repr

/-- The pin of any declaration. -/
abbrev Pin := PinOf PinKind

/-- The documentation of a declaration. -/
def PinOf.doc (pin : PinOf Kind) : Docstring :=
  .read pin.comments

/-- A parameter's pin among the pins of all kinds. -/
def PinOf.ofParameter (pin : ParameterPin) : Pin :=
  { pin with kind := .parameter pin.kind }

namespace PinKind

/-- The type that a declaration's documentation states, or that its kind implies. -/
def declaredType (path comments : String) : PinKind → DocUnion
  | namespacePin kind _ _ => [.metaOf path (kind = .moduleNamespace)]
  | method _ => (Docstring.read comments).returnType?.getD []
  | localVariable _ _ | instanceVariable _ | classVariable _ | globalVariable _ | constant _ =>
      (Docstring.read comments).typeHint?.getD []
  | parameter _ | reference _ _ | proxy => []

end PinKind

namespace PinOf

/-- A pin with the type that its kind and its documentation declare. -/
def declare (id : PinId) (name path : String) (closure : Closure) (location : Location)
    (comments : Option String) (kind : PinKind) : Pin :=
  let comments := comments.getD ""
  { id, name, path, closure, location, comments, declared := kind.declaredType path comments, kind }

/-- A pin with a receiver's view of its type. -/
def proxyWith (pin : Pin) (type : DocUnion) : Pin :=
  { pin with comments := "", declared := type, kind := .proxy }

/-- What a method pin declares. -/
def method? (pin : Pin) : Option MethodDetail :=
  match pin.kind with
  | .method detail => some detail
  | _ => none

/-- The pin declares a class or a module. -/
def isNamespace (pin : Pin) : Bool :=
  match pin.kind with
  | .namespacePin .. => true
  | _ => false

/-- The pin declares a constant by assignment. -/
def isConstant (pin : Pin) : Bool :=
  match pin.kind with
  | .constant _ => true
  | _ => false

/-- Pins that a constant's name can refer to. -/
def isNamespaceOrConstant (pin : Pin) : Bool :=
  pin.isNamespace || pin.isConstant

/-- The pin declares an instance variable. -/
def isInstanceVariable (pin : Pin) : Bool :=
  match pin.kind with
  | .instanceVariable _ => true
  | _ => false

/-- The pin declares a class variable. -/
def isClassVariable (pin : Pin) : Bool :=
  match pin.kind with
  | .classVariable _ => true
  | _ => false

/-- The lexical nesting of a namespace or a mixin call; empty for all others. -/
def gates (pin : Pin) : List String :=
  match pin.kind with
  | .namespacePin _ _ gates | .reference _ gates => gates
  | _ => []

/-- The level of a method, or of `self` where another pin is declared. -/
def scope (pin : Pin) : Scope :=
  match pin.kind with
  | .method detail => detail.scope
  | .namespacePin .. => .classLevel
  | _ => pin.closure.scope

/-- The visibility of a method; all other pins are public. -/
def visibility (pin : Pin) : Visibility :=
  match pin.kind with
  | .method detail => detail.visibility
  | _ => .publicAccess

/-- The parameters of a method. -/
def parameters (pin : Pin) : List ParameterPin :=
  match pin.kind with
  | .method detail => detail.parameters
  | _ => []

/-- A pin, followed by its parameters. -/
def withParameters (pin : Pin) : List Pin :=
  pin :: pin.parameters.map .ofParameter

/-- Where a local variable or parameter can be seen. -/
def localScope? (pin : Pin) : Option LocalScope :=
  match pin.kind with
  | .parameter detail => some detail.scope
  | .localVariable _ scope => some scope
  | _ => none

/-- The value assigned to a variable or constant. -/
def assignment? (pin : Pin) : Option SyntaxNode :=
  match pin.kind with
  | .localVariable assignment _ | .instanceVariable assignment | .classVariable assignment
  | .globalVariable assignment | .constant assignment => assignment
  | _ => none

/-- The namespace that `self` belongs to inside a pin. -/
def contextNamespace (pin : Pin) : String :=
  match pin.kind with
  | .namespacePin .. => pin.path
  | _ => pin.closure.namespacePath

/-- The closure of code inside a namespace or a method; for all others, the pin's own. -/
def innerClosure (pin : Pin) : Closure :=
  match pin.kind with
  | .namespacePin .. =>
      ⟨pin.path, pin.path, if pin.path = "" then .instanceLevel else .classLevel⟩
  | .method detail => ⟨pin.path, pin.closure.namespacePath, detail.scope⟩
  | _ => pin.closure

/-- The path of a pin, or its name if it has none. -/
def display (pin : Pin) : String :=
  if pin.path = "" then pin.name else pin.path

end PinOf

end TagCheck
