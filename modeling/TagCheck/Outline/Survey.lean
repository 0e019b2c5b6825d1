import TagCheck.Outline.Path
import TagCheck.Outline.Pin

namespace TagCheck

/-!
# Surveying a syntax tree

One walk over a syntax tree finds all declarations in it.  What a declaration means depends on the
region it stands in: the namespace around it, whether plain definitions are instance or class
methods there, and the visibility that applies to new methods.  The last of these changes from
statement to statement and so belongs to the state of the walk.
-/

/-- The source that is surveyed. -/
structure SourceLabel where
  filename : String
  /-- The source's number, which is part of the identity of its pins. -/
  number : Nat

/-- The lexical surroundings of a statement. -/
structure Region where
  closure : Closure
  /-- The level of methods that a plain definition makes here. -/
  definitionScope : Scope
  /-- Lexical nesting, innermost first. -/
  gates : List String
  hardScope : Span
  presence : Span
  /-- Directly inside the body of a class, a module or a program. -/
  inNamespaceBody : Bool

/-- What a walk has found so far. -/
structure Survey where
  /-- The declarations, the latest first. -/
  pins : List Pin
  /-- The local variables, the latest first. -/
  locals : List Pin
  /-- The spans of programs, classes, modules and methods. -/
  hardScopes : List Span
  /-- The visibility of methods that are defined next. -/
  visibility : Visibility
  /-- The number of the next pin. -/
  nextSerial : Nat

/-- The visibility that a keyword names. -/
def Visibility.ofKeyword? : String → Option Visibility
  | "public" => some .publicAccess
  | "protected" => some .protectedAccess
  | "private" => some .privateAccess
  | _ => none

namespace Survey

/-- Declare a pin behind all others. -/
def declare (survey : Survey) (source : SourceLabel) (name path : String) (closure : Closure)
    (span : Span) (comments : Option String) (kind : PinKind) : Survey :=
  { survey with
    pins :=
      .declare ⟨source.number, survey.nextSerial⟩ name path closure ⟨source.filename, span⟩
        comments kind :: survey.pins
    nextSerial := survey.nextSerial + 1 }

/-- Begin a scope that local variables neither enter nor leave. -/
def openHardScope (survey : Survey) (span : Span) : Survey :=
  { survey with hardScopes := survey.hardScopes ++ [span], visibility := .publicAccess }

/-- Declare a local variable, visible behind the node that binds it. -/
def declareLocal (survey : Survey) (source : SourceLabel) (region : Region) (name : String)
    (binder : SyntaxNode) (assignment : Option SyntaxNode) : Survey :=
  { survey with
    locals :=
      .declare ⟨source.number, survey.nextSerial⟩ name name region.closure
        ⟨source.filename, binder.span⟩ binder.comments
        (.localVariable assignment ⟨region.presence, region.hardScope, binder.span.stop⟩) ::
          survey.locals
    nextSerial := survey.nextSerial + 1 }

/-- Give another visibility to the first pin that has a property. -/
def setVisibilityOfFirst (visibility : Visibility) (isMeant : Pin → Bool) : List Pin → List Pin
  | [] => []
  | pin :: rest =>
      if isMeant pin then
        match pin.kind with
        | .method detail => { pin with kind := .method { detail with visibility } } :: rest
        | _ => pin :: rest
      else
        pin :: setVisibilityOfFirst visibility isMeant rest

/-- Give another visibility to the latest method of a name that is defined in a region. -/
def setVisibility (survey : Survey) (region : Region) (visibility : Visibility) (name : String) :
    Survey :=
  let isMeant (pin : Pin) : Bool :=
    pin.name = name && pin.closure.namespacePath = region.closure.namespacePath &&
      match pin.method? with
      | some detail => detail.scope = region.definitionScope
      | none => false
  { survey with pins := setVisibilityOfFirst visibility isMeant survey.pins }

end Survey

namespace Region

/-- The body of a namespace. -/
def ofNamespace (region : Region) (path : String) (span : Span) : Region where
  closure := ⟨path, path, .classLevel⟩
  definitionScope := .instanceLevel
  gates := path :: region.gates
  hardScope := span
  presence := span
  inNamespaceBody := true

/-- The body of `class << self`, where plain definitions make class methods. -/
def ofSingletonClass (region : Region) (span : Span) : Region where
  closure := { region.closure with scope := .classLevel }
  definitionScope := .classLevel
  gates := region.gates
  hardScope := span
  presence := span
  inNamespaceBody := true

/-- The body of a method. -/
def ofMethod (region : Region) (closure : Closure) (span : Span) : Region where
  closure := closure
  definitionScope := .instanceLevel
  gates := region.gates
  hardScope := span
  presence := span
  inNamespaceBody := false

/-- The body of a block, which shares the locals around it. -/
def ofBlock (region : Region) (span : Span) : Region :=
  { region with presence := span, inNamespaceBody := false }

/-- The top level of a program. -/
def ofProgram (span : Span) : Region where
  closure := .root
  definitionScope := .instanceLevel
  gates := [""]
  hardScope := span
  presence := span
  inNamespaceBody := true

/-- The path that a class or a module declares in a region; none if it has no name. -/
def definedPath? (region : Region) (node : SyntaxNode) : Option String :=
  (node.child? .name).map fun name =>
    (ConstantPath.absolute? name.text).getD (joinPath region.closure.namespacePath name.text)

/-- What surrounds the body of a method; a method defined at the top level belongs to `Object`. -/
def methodClosure (region : Region) (name : String) (scope : Scope) : Closure :=
  let namespacePath := region.closure.namespacePath
  let owner := if namespacePath = "" then "Object" else namespacePath
  ⟨methodPath owner name scope, owner, scope⟩

end Region

namespace SyntaxNode

/-- A constant, or a path of constants. -/
def isConstantPath (node : SyntaxNode) : Bool :=
  node.kind = .constant || node.kind = .scopeResolution

/-- A literal that can name a method. -/
def isMethodNameLiteral (node : SyntaxNode) : Bool :=
  node.kind = .symbol || node.kind = .string

/-- The arguments of a call. -/
def arguments (node : SyntaxNode) : List SyntaxNode :=
  match node.child? .arguments with
  | some list => list.statements
  | none => []

/-- The expression for the superclass that a class definition writes. -/
def superclass? (node : SyntaxNode) : Option SyntaxNode :=
  (node.child? .superclass).bind (·.statements.head?)

/-- The name of the superclass that a class definition writes; only a constant path is one. -/
def superclassName? (node : SyntaxNode) : Option String :=
  match node.superclass? with
  | some superclass => if superclass.isConstantPath then some superclass.text else none
  | none => none

/-- Children that are plain identifiers. -/
def identifiers (node : SyntaxNode) : List SyntaxNode :=
  node.children.filter (·.kind = .identifier)

/-- The kind of a parameter; none for nodes that are no parameter by themselves. -/
def parameterKind? (node : SyntaxNode) : Option ParameterKind :=
  match node.kind with
  | .requiredParameter => some .required
  | .optionalParameter => some .optional
  | .splatParameter => some .splat
  | .hashSplatParameter => some .doubleSplat
  | .blockParameter => some .block
  | .keywordParameter => some (if (node.child? .value).isSome then .optionalKeyword else .keyword)
  | _ => none

/-- The name of a parameter of some kind. -/
def parameterName (node : SyntaxNode) (kind : ParameterKind) : String :=
  if kind = .required then node.text else node.name?.getD ""

/-- The parameters that one entry of a parameter list binds: name, kind and node of each. -/
def boundParameters (node : SyntaxNode) : List (String × ParameterKind × SyntaxNode) :=
  if node.kind = .other "destructured_parameter" then
    node.identifiers.map fun name => (name.text, .required, name)
  else
    match node.parameterKind? with
    | some kind =>
        let name := node.parameterName kind
        if name = "" then [] else [(name, kind, node)]
    | none => []

/-- All parameters that a list binds: name, kind, span and entry of each. -/
def listedParameters (list : SyntaxNode) : List (String × ParameterKind × Span × Nat) :=
  list.children.zipIdx.flatMap fun (node, index) =>
    node.boundParameters.map fun (name, kind, node) => (name, kind, node.span, index)

/-- The variables that the pattern of a loop binds. -/
def loopTargets (pattern : SyntaxNode) : List SyntaxNode :=
  if pattern.kind = .identifier then [pattern] else pattern.identifiers

end SyntaxNode

/-- The name that a symbol or a string literal spells, without its colon and quotation marks. -/
def symbolName (literal : String) : String :=
  let isQuote (c : Char) : Bool := c == '"' || c == '\''
  let name := (literal.toList.dropWhile (· == ':')).dropWhile isQuote
  String.ofList (name.reverse.dropWhile isQuote).reverse

namespace Survey

/-- The pins of the parameters that a list binds, numbered in a row. -/
def parameterPins (survey : Survey) (source : SourceLabel) (closure : Closure) (doc : Docstring)
    (presence hardScope : Span) (list : SyntaxNode) : List ParameterPin :=
  list.listedParameters.zipIdx.map fun ((name, kind, span, index), offset) =>
    { id := ⟨source.number, survey.nextSerial + offset⟩
      name
      path := name
      closure
      location := ⟨source.filename, span⟩
      comments := ""
      declared := (doc.paramType? name).getD []
      kind := ⟨kind, index, ⟨presence, hardScope, presence.start⟩⟩ }

/-- Declare the parameters of a list; they are locals as well. -/
def declareParameters (survey : Survey) (source : SourceLabel) (closure : Closure)
    (doc : Docstring) (presence hardScope : Span) (list : SyntaxNode) :
    List ParameterPin × Survey :=
  let pins := survey.parameterPins source closure doc presence hardScope list
  (pins,
    { survey with
      locals := (pins.map .ofParameter).reverse ++ survey.locals
      nextSerial := survey.nextSerial + pins.length })

/-- Declare a namespace and enter its body. -/
def openNamespace? (survey : Survey) (source : SourceLabel) (region : Region) (node : SyntaxNode) :
    Option (Region × Survey) := do
  let path ← region.definedPath? node
  let (parent, shortName) := (ConstantPath.splitLast? path).getD ("", path)
  let kind : NamespaceKind :=
    if node.kind = .moduleDefinition then .moduleNamespace else .classNamespace
  let inner := region.ofNamespace path node.span
  let survey :=
    survey.declare source shortName path ⟨parent, parent, .classLevel⟩ node.span node.comments
      (.namespacePin kind node.superclassName? inner.gates)
  return (inner, survey.openHardScope node.span)

/-- Enter the body of `class << self`; other singleton classes are skipped. -/
def openSingletonClass? (survey : Survey) (region : Region) (node : SyntaxNode) :
    Option (Region × Survey) :=
  match node.child? .value with
  | some value =>
      if value.kind = .selfReference then
        some (region.ofSingletonClass node.span, survey.openHardScope node.span)
      else
        none
  | none => none

/-- Declare a method and enter its body; `initialize` is always private. -/
def openMethod? (survey : Survey) (source : SourceLabel) (region : Region) (node : SyntaxNode)
    (scope : Scope) : Option (Region × Survey) := do
  let name ← node.name?
  let closure := region.methodClosure name scope
  let (parameters, survey) :=
    match node.child? .parameters with
    | some list =>
        survey.declareParameters source closure (.read (node.comments.getD "")) node.span node.span
          list
    | none => ([], survey)
  let visibility := if name = "initialize" then .privateAccess else survey.visibility
  let owner := closure.namespacePath
  let survey :=
    survey.declare source name closure.path ⟨owner, owner, .classLevel⟩ node.span node.comments
      (.method ⟨scope, visibility, parameters, false, some node⟩)
  return (region.ofMethod closure node.span, survey.openHardScope node.span)

/-- Enter the body of a definition, and declare what it defines. -/
def openDefinition? (survey : Survey) (source : SourceLabel) (region : Region)
    (node : SyntaxNode) : Option (Region × Survey) :=
  match node.kind with
  | .classDefinition | .moduleDefinition => survey.openNamespace? source region node
  | .singletonClass => survey.openSingletonClass? region node
  | .method => survey.openMethod? source region node region.definitionScope
  | .singletonMethod =>
      match node.child? .object with
      | some object =>
          if object.kind = .selfReference then
            survey.openMethod? source region node .classLevel
          else
            none
      | none => none
  | _ => none

/-- Declare the parameters of a block and enter its body. -/
def openBlock (survey : Survey) (source : SourceLabel) (region : Region) (node : SyntaxNode) :
    Region × Survey :=
  let survey :=
    match node.child? .parameters with
    | some list =>
        (survey.declareParameters source region.closure .empty node.span region.hardScope list).2
    | none => survey
  (region.ofBlock node.span, survey)

/-- Targets of an assignment that are declared and not walked. -/
def isDeclaredTarget : NodeKind → Bool
  | .identifier | .leftAssignmentList | .instanceVariable | .classVariable | .globalVariable
  | .constant => true
  | _ => false

/-- Declare what an assignment binds. -/
def declareTarget (survey : Survey) (source : SourceLabel) (region : Region)
    (node target : SyntaxNode) : Survey :=
  let right := node.child? .right
  let variablePath := region.closure.namespacePath ++ "#" ++ target.text
  let declareAs (path : String) (kind : PinKind) : Survey :=
    survey.declare source target.text path region.closure node.span node.comments kind
  match target.kind with
  | .identifier => survey.declareLocal source region target.text node right
  | .leftAssignmentList =>
      target.identifiers.foldl
        (fun survey name => survey.declareLocal source region name.text name none) survey
  | .instanceVariable => declareAs variablePath (.instanceVariable right)
  | .classVariable => declareAs variablePath (.classVariable right)
  | .globalVariable => declareAs variablePath (.globalVariable right)
  | .constant => declareAs (joinPath region.closure.namespacePath target.text) (.constant right)
  | _ => survey

/-- Declare the modules that a mixin call names; only constant paths are references. -/
def declareReferences (survey : Survey) (source : SourceLabel) (region : Region)
    (kind : ReferenceKind) (arguments : List SyntaxNode) : Survey :=
  (arguments.filter (·.isConstantPath)).foldl
    (fun survey argument =>
      survey.declare source argument.text argument.text region.closure argument.span none
        (.reference kind region.gates))
    survey

/-- Declare a method that reads or writes an attribute. -/
def declareAttribute (survey : Survey) (source : SourceLabel) (region : Region) (name : String)
    (parameters : List ParameterPin) (span : Span) (comments : Option String) : Survey :=
  survey.declare source name
    (methodPath region.closure.namespacePath name region.definitionScope) region.closure span
    comments (.method ⟨region.definitionScope, survey.visibility, parameters, true, none⟩)

/-- Declare the method that writes an attribute; its parameter has the attribute's type. -/
def declareWriter (survey : Survey) (source : SourceLabel) (region : Region) (name : String)
    (span : Span) (comments : Option String) : Survey :=
  let scope := region.definitionScope
  let value : ParameterPin :=
    { id := ⟨source.number, survey.nextSerial⟩
      name := "value"
      path := "value"
      closure :=
        ⟨methodPath region.closure.namespacePath (name ++ "=") scope,
          region.closure.namespacePath, scope⟩
      location := ⟨source.filename, span⟩
      comments := ""
      declared := (Docstring.read (comments.getD "")).returnType?.getD []
      kind := ⟨.required, 0, ⟨span, span, span.start⟩⟩ }
  { survey with nextSerial := survey.nextSerial + 1 }.declareAttribute source region (name ++ "=")
    [value] span comments

/-- Declare the attributes that a call lists. -/
def declareAttributes (survey : Survey) (source : SourceLabel) (region : Region)
    (call : String) (arguments : List SyntaxNode) (comments : Option String) : Survey :=
  arguments.foldl
    (fun survey argument =>
      let name := symbolName argument.text
      if !argument.isMethodNameLiteral || name = "" then
        survey
      else
        let survey :=
          if call != "attr_writer" then
            survey.declareAttribute source region name [] argument.span comments
          else
            survey
        if call == "attr_writer" || call == "attr_accessor" then
          survey.declareWriter source region name argument.span comments
        else
          survey)
    survey

/-- Declare what a call without receiver in the body of a namespace brings about. -/
def declareByCall (survey : Survey) (source : SourceLabel) (region : Region) (node : SyntaxNode) :
    Survey :=
  match node.name?.getD "" with
  | "include" => survey.declareReferences source region .inclusion node.arguments
  | "extend" => survey.declareReferences source region .extension node.arguments
  | "prepend" => survey.declareReferences source region .prepending node.arguments
  | "attr_reader" | "attr_writer" | "attr_accessor" | "attr" =>
      survey.declareAttributes source region (node.name?.getD "") node.arguments node.comments
  | _ => survey

/-- Declare what a `rescue` clause or a loop binds. -/
def declareBound (survey : Survey) (source : SourceLabel) (region : Region)
    (names : List SyntaxNode) (binder : SyntaxNode) : Survey :=
  names.foldl (fun survey name => survey.declareLocal source region name.text binder none) survey

/-- Declare the variables of a loop. -/
def declareLoopTargets (survey : Survey) (source : SourceLabel) (region : Region)
    (node : SyntaxNode) : Survey :=
  match node.child? .pattern with
  | some pattern => survey.declareBound source region pattern.loopTargets pattern
  | none => survey

/-- The visibility that a call in the body of a namespace asks for. -/
def visibilityCall? (region : Region) (node : SyntaxNode) : Option Visibility :=
  if region.inNamespaceBody && (node.child? .receiver).isNone then
    Visibility.ofKeyword? (node.name?.getD "")
  else
    none

mutual

/-- Walk a node in a region. -/
def visit (source : SourceLabel) (region : Region) : SyntaxNode → Survey → Survey
  | ⟨kind, field, text?, comments, span, children⟩, survey =>
      let node : SyntaxNode := ⟨kind, field, text?, comments, span, children⟩
      match kind with
      | .classDefinition | .moduleDefinition | .singletonClass | .method | .singletonMethod =>
          match survey.openDefinition? source region node with
          | some (inner, opened) =>
              { visitWhere source inner SyntaxNode.isStatement children opened with
                visibility := survey.visibility }
          | none => survey
      | .assignment | .operatorAssignment =>
          let survey :=
            match node.child? .left with
            | some target =>
                if isDeclaredTarget target.kind then
                  survey.declareTarget source region node target
                else
                  visitFirst source region .left children survey
            | none => survey
          visitFirst source region .right children survey
      | .call =>
          match visibilityCall? region node with
          | some visibility =>
              if node.arguments.isEmpty then
                { survey with visibility }
              else
                visitVisibilityCall source region visibility children survey
          | none =>
              let survey :=
                if region.inNamespaceBody && (node.child? .receiver).isNone then
                  survey.declareByCall source region node
                else
                  survey
              visitWhere source region (fun _ => true) children survey
      | .identifier =>
          if region.inNamespaceBody then
            { survey with
              visibility := (Visibility.ofKeyword? node.text).getD survey.visibility }
          else
            visitWhere source region (fun _ => true) children survey
      | .block | .lambda =>
          let (inner, opened) := survey.openBlock source region node
          { visitWhere source inner (fun child => child.field != some .parameters) children
              opened with
            visibility := survey.visibility }
      | .other "exception_variable" => survey.declareBound source region node.identifiers node
      | .other "for" =>
          visitWhere source region (fun child => child.field != some .pattern) children
            (survey.declareLoopTargets source region node)
      | _ => visitWhere source region (fun _ => true) children survey

/-- Walk those of several siblings that have a property. -/
def visitWhere (source : SourceLabel) (region : Region) (property : SyntaxNode → Bool) :
    List SyntaxNode → Survey → Survey
  | [], survey => survey
  | node :: rest, survey =>
      visitWhere source region property rest
        (if property node then visit source region node survey else survey)

/-- Walk the first of several siblings in a role. -/
def visitFirst (source : SourceLabel) (region : Region) (field : NodeField) :
    List SyntaxNode → Survey → Survey
  | [], survey => survey
  | node :: rest, survey =>
      if node.field = some field then
        visit source region node survey
      else
        visitFirst source region field rest survey

/-- Apply a visibility to the arguments among the children of a call. -/
def visitVisibilityCall (source : SourceLabel) (region : Region) (visibility : Visibility) :
    List SyntaxNode → Survey → Survey
  | [], survey => survey
  | ⟨_, field, _, _, _, children⟩ :: rest, survey =>
      if field = some .arguments then
        visitWithVisibility source region visibility children survey
      else
        visitVisibilityCall source region visibility rest survey

/-- A literal names an earlier method; any other argument is walked with the visibility. -/
def visitWithVisibility (source : SourceLabel) (region : Region) (visibility : Visibility) :
    List SyntaxNode → Survey → Survey
  | [], survey => survey
  | argument :: rest, survey =>
      let survey :=
        if !argument.isStatement then
          survey
        else if argument.isMethodNameLiteral then
          survey.setVisibility region visibility (symbolName argument.text)
        else
          { visit source region argument { survey with visibility } with
            visibility := survey.visibility }
      visitWithVisibility source region visibility rest survey

end

/-- The survey of the statements of a program. -/
def ofProgram (source : SourceLabel) (root : SyntaxNode) : Survey :=
  visitWhere source (.ofProgram root.span) (fun _ => true) root.children
    { pins := []
      locals := []
      hardScopes := [root.span]
      visibility := .publicAccess
      nextSerial := 1 }

/-- The pin of the namespace that a whole program is. -/
def rootPin (source : SourceLabel) (span : Span) : Pin :=
  .declare ⟨source.number, 0⟩ "" "" .root ⟨source.filename, span⟩ none
    (.namespacePin .classNamespace none [""])

end Survey

end TagCheck
