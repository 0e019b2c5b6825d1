import TagCheck.Outline.Pin

namespace TagCheck

/-!
# Stubs

A stub declares a class, a module, a method, a mixin or a constant of the core library without any
code.  Stubs are laid out as a source file would show them: methods on one line below their
documentation, bodies indented by two columns, and a blank line between members, except between
neighbours that each take a single line and need no documentation.
-/

/-- A parameter of a stub method. -/
inductive StubParameter where
  | required (name : String)
  | rest (name : String)
  | optional (name default : String)

/-- A declaration without code. -/
inductive Stub where
  | methodStub (isClassMethod : Bool) (name : String) (parameters : List StubParameter)
      (doc : List String)
  | inclusion (moduleName : String)
  | constant (name number : String)
  | namespaceStub (kind : NamespaceKind) (name : String) (superclass : Option String)
      (members : List Stub)

namespace Stub

/-- An instance method. -/
def method (name : String) (parameters : List StubParameter) (doc : List String) : Stub :=
  .methodStub false name parameters doc

/-- A class method. -/
def classMethod (name : String) (parameters : List StubParameter) (doc : List String) : Stub :=
  .methodStub true name parameters doc

/-- Constants and empty classes stand directly below each other. -/
def isCompact : Stub → Bool
  | .constant .. => true
  | .namespaceStub _ _ _ members => members.isEmpty
  | _ => false

end Stub

namespace Stub.Layout

/-- A place in the layout, from which texts are written along a line. -/
abbrev Place := Position

/-- The place behind a text. -/
def behind (place : Place) (text : String) : Place :=
  ⟨place.line, place.column + text.utf8ByteSize⟩

/-- A leaf that shows its text. -/
def leaf (kind : NodeKind) (field : Option NodeField) (place : Place) (text : String) :
    SyntaxNode :=
  ⟨kind, field, some text, none, ⟨place, behind place text⟩, []⟩

/-- An inner node that begins and ends with its children. -/
def branch (kind : NodeKind) (field : Option NodeField) (start stop : Place)
    (children : List SyntaxNode) : SyntaxNode :=
  ⟨kind, field, none, none, ⟨start, stop⟩, children⟩

/-- A parameter at a place. -/
def parameter (place : Place) : StubParameter → SyntaxNode
  | .required name => leaf .requiredParameter none place name
  | .rest name =>
      let named := leaf .identifier (some .name) (behind place "*") name
      branch .splatParameter none place named.span.stop [named]
  | .optional name default =>
      let named := leaf .identifier (some .name) place name
      let value := leaf (.other "default") (some .value) (behind named.span.stop " = ") default
      branch .optionalParameter none place value.span.stop [named, value]

/-- Parameters from a place on, separated by a comma and a blank. -/
def parameters (place : Place) : List StubParameter → List SyntaxNode
  | [] => []
  | first :: rest =>
      let node := parameter place first
      node :: parameters (behind node.span.stop ", ") rest

/-- A parameter list in round brackets; methods without parameters have none. -/
def parameterList (place : Place) : List StubParameter → List SyntaxNode × Place
  | [] => ([], place)
  | listed =>
      let nodes := parameters (behind place "(") listed
      let stop := behind ((nodes.getLast?.map (·.span.stop)).getD place) ")"
      ([branch .parameters (some .parameters) place stop nodes], stop)

/-- A method on one line, below its documentation. -/
def methodNode (place : Place) (isClassMethod : Bool) (name : String)
    (listed : List StubParameter) (doc : List String) : SyntaxNode :=
  let start : Place := ⟨place.line + doc.length, place.column⟩
  let object := leaf .selfReference (some .object) (behind start "def ") "self"
  let named :=
    leaf .identifier (some .name) (behind start (if isClassMethod then "def self." else "def ")) name
  let (parameterNodes, stop) := parameterList named.span.stop listed
  { kind := if isClassMethod then .singletonMethod else .method
    field := none
    text? := none
    comments := if doc.isEmpty then none else some ("\n".intercalate doc)
    span := ⟨start, behind stop "; end"⟩
    children := (if isClassMethod then [object] else []) ++ named :: parameterNodes }

/-- A mixin call. -/
def inclusionNode (place : Place) (moduleName : String) : SyntaxNode :=
  let name := leaf .identifier (some .method) place "include"
  let argument := leaf .constant none (behind name.span.stop " ") moduleName
  branch .call none place argument.span.stop
    [name, branch .argumentList (some .arguments) argument.span.start argument.span.stop [argument]]

/-- The definition of a numeric constant. -/
def constantNode (place : Place) (name number : String) : SyntaxNode :=
  let left := leaf .constant (some .left) place name
  let right := leaf .float (some .right) (behind left.span.stop " = ") number
  branch .assignment none place right.span.stop [left, right]

mutual

/-- Lay out a stub from a place on. -/
def node (place : Place) : Stub → SyntaxNode
  | .methodStub isClassMethod name listed doc => methodNode place isClassMethod name listed doc
  | .inclusion moduleName => inclusionNode place moduleName
  | .constant name number => constantNode place name number
  | .namespaceStub kind name superclass members =>
      let keyword := if kind = .moduleNamespace then "module " else "class "
      let named := leaf .constant (some .name) (behind place keyword) name
      let superclassNodes :=
        superclass.toList.map fun superclass =>
          let named := leaf .constant none (behind named.span.stop " < ") superclass
          branch .superclass (some .superclass) (behind named.span.start "< ") named.span.stop
            [named]
      let memberNodes := nodes ⟨place.line + 1, place.column + 2⟩ members
      let header := (superclassNodes.getLast?.getD named).span.stop
      let stop :=
        match memberNodes.getLast? with
        | some last => behind ⟨last.span.stop.line + 1, place.column⟩ "end"
        | none => behind header "; end"
      branch (if kind = .moduleNamespace then .moduleDefinition else .classDefinition) none place
        stop (named :: superclassNodes ++ memberNodes)

/-- Lay out stubs below each other. -/
def nodes (place : Place) : List Stub → List SyntaxNode
  | [] => []
  | stub :: rest =>
      let laidOut := node place stub
      let gap :=
        match rest with
        | next :: _ => if stub.isCompact && next.isCompact then 1 else 2
        | [] => 1
      laidOut :: nodes ⟨laidOut.span.stop.line + gap, place.column⟩ rest

end

/-- The syntax tree of stubs that begin on a line. -/
def program (firstLine : Nat) (stubs : List Stub) : SyntaxNode :=
  let laidOut := nodes ⟨firstLine, 0⟩ stubs
  let stop := (laidOut.getLast?.map fun last => last.span.stop.line + 1).getD firstLine
  branch .program none ⟨0, 0⟩ ⟨stop, 0⟩ laidOut

end Stub.Layout

end TagCheck
