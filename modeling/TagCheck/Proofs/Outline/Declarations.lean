import TagCheck.Proofs.Outline.Entering

namespace TagCheck

/-!
# Declarations without their places

A pin says what is declared, where, and who may call it.  What is declared follows from the node and
its region alone; the place is told by the numbers and spans of the survey, and who may call a method
depends on what stands in front of it.  So the declarations of a survey are listed node by node, and
the methods that a node declares have the visibility that is in force there.
-/

/-- What a method declares about one of its parameters. -/
structure DeclaredParameter where
  name : String
  kind : ParameterKind
  /-- Place in the parameter list. -/
  index : Nat
  /-- The documented type. -/
  type : DocUnion

/-- The kinds of pins, without nodes, places and visibilities. -/
inductive DeclaredKind where
  | namespaceOf (kind : NamespaceKind) (superclass : Option String) (gates : List String)
  | method (scope : Scope) (parameters : List DeclaredParameter) (isAttribute : Bool)
  | instanceVariable
  | classVariable
  | globalVariable
  | constant
  | reference (kind : ReferenceKind) (gates : List String)
  /-- Parameters, locals and proxies, which are no declarations of a namespace. -/
  | inner

/-- What a pin declares, apart from its place and its visibility. -/
structure Declaration where
  name : String
  path : String
  closure : Closure
  doc : Docstring
  /-- The type that is known without looking at code. -/
  type : DocUnion
  kind : DeclaredKind

namespace DeclaredKind

/-- The kind of a pin. -/
def ofKind : PinKind → DeclaredKind
  | .namespacePin kind superclass gates => .namespaceOf kind superclass gates
  | .method detail =>
      .method detail.scope
        (detail.parameters.map fun pin =>
          ⟨pin.name, pin.kind.kind, pin.kind.index, pin.declared⟩)
        detail.isAttribute
  | .instanceVariable _ => .instanceVariable
  | .classVariable _ => .classVariable
  | .globalVariable _ => .globalVariable
  | .constant _ => .constant
  | .reference kind gates => .reference kind gates
  | .parameter _ | .localVariable _ _ | .proxy => .inner

/-- The type that a declaration's documentation states, or that its kind implies. -/
def typeOf (path : String) (doc : Docstring) : DeclaredKind → DocUnion
  | .namespaceOf kind _ _ => [.metaOf path (kind = .moduleNamespace)]
  | .method .. => doc.returnType?.getD []
  | .instanceVariable | .classVariable | .globalVariable | .constant => doc.typeHint?.getD []
  | .reference .. | .inner => []

end DeclaredKind

namespace Declaration

/-- What a pin declares. -/
def ofPin (pin : Pin) : Declaration :=
  ⟨pin.name, pin.path, pin.closure, pin.doc, pin.declared, .ofKind pin.kind⟩

/-- What is declared under a comment. -/
def under (comments : Option String) (name path : String) (closure : Closure)
    (kind : DeclaredKind) : Declaration :=
  let doc := Docstring.read (comments.getD "")
  ⟨name, path, closure, doc, kind.typeOf path doc, kind⟩

/-- The declaration is that of a method. -/
def isMethod (declaration : Declaration) : Bool :=
  match declaration.kind with
  | .method .. => true
  | _ => false

/-- A declared pin declares what it was made of. -/
theorem ofPin_declare
    (id : PinId)
    (name path : String)
    (closure : Closure)
    (location : Location)
    (comments : Option String)
    {kind : PinKind}
    (isDeclared : DeclaredKind.ofKind kind ≠ .inner) :
    ofPin (.declare id name path closure location comments kind) =
      under comments name path closure (.ofKind kind) := by
  cases kind with
  | parameter _ | localVariable _ _ | proxy =>
      exact absurd rfl isDeclared
  | _ =>
      rfl

end Declaration

namespace SyntaxNode

/-- What a parameter list declares, with the types that a comment documents. -/
def declaredParameters (list : SyntaxNode) (doc : Docstring) : List DeclaredParameter :=
  list.listedParameters.map fun (name, kind, _, index) =>
    ⟨name, kind, index, (doc.paramType? name).getD []⟩

end SyntaxNode

namespace Region

/-- The method that a definition declares; none if it has no name. -/
def methodDeclaration? (region : Region) (node : SyntaxNode) (scope : Scope) :
    Option Declaration :=
  node.name?.map fun name =>
    let closure := region.methodClosure name scope
    let owner := closure.namespacePath
    .under node.comments name closure.path ⟨owner, owner, .classLevel⟩
      (.method scope
        ((node.child? .parameters).toList.flatMap
          (·.declaredParameters (.read (node.comments.getD ""))))
        false)

/-- The namespace that a class or a module declares; none if it has no name. -/
def namespaceDeclaration? (region : Region) (node : SyntaxNode) : Option Declaration :=
  (region.definedPath? node).map fun path =>
    let (parent, shortName) := (ConstantPath.splitLast? path).getD ("", path)
    .under node.comments shortName path ⟨parent, parent, .classLevel⟩
      (.namespaceOf
        (if node.kind = .moduleDefinition then .moduleNamespace else .classNamespace)
        node.superclassName? (path :: region.gates))

/-- What the target of an assignment declares, apart from local variables. -/
def targetDeclarations (region : Region) (node target : SyntaxNode) : List Declaration :=
  let variablePath := region.closure.namespacePath ++ "#" ++ target.text
  let declareAs (path : String) (kind : DeclaredKind) : List Declaration :=
    [.under node.comments target.text path region.closure kind]
  match target.kind with
  | .instanceVariable => declareAs variablePath .instanceVariable
  | .classVariable => declareAs variablePath .classVariable
  | .globalVariable => declareAs variablePath .globalVariable
  | .constant => declareAs (joinPath region.closure.namespacePath target.text) .constant
  | _ => []

/-- A target that is walked declares nothing. -/
theorem targetDeclarations_eq_nil
    {region : Region}
    {node target : SyntaxNode}
    (notDeclared : Survey.isDeclaredTarget target.kind = false) :
    region.targetDeclarations node target = [] := by
  unfold targetDeclarations
  dsimp only
  split
  case h_5 => rfl
  all_goals
    next isVariable =>
      rw [isVariable] at notDeclared
      cases notDeclared

/-- The mixin calls that a call declares, one for each constant path. -/
def referenceDeclarations (region : Region) (kind : ReferenceKind) (arguments : List SyntaxNode) :
    List Declaration :=
  (arguments.filter (·.isConstantPath)).map fun argument =>
    .under none argument.text argument.text region.closure (.reference kind region.gates)

/-- A method that reads or writes an attribute. -/
def attributeDeclaration (region : Region) (comments : Option String) (name : String)
    (parameters : List DeclaredParameter) : Declaration :=
  .under comments name (methodPath region.closure.namespacePath name region.definitionScope)
    region.closure (.method region.definitionScope parameters true)

/-- The methods that read and write the attribute which an argument names. -/
def attributeDeclarations (region : Region) (call : String) (comments : Option String)
    (argument : SyntaxNode) : List Declaration :=
  let name := symbolName argument.text
  let value : DeclaredParameter :=
    ⟨"value", .required, 0, (Docstring.read (comments.getD "")).returnType?.getD []⟩
  if !argument.isMethodNameLiteral || name = "" then
    []
  else
    (if call != "attr_writer" then [region.attributeDeclaration comments name []] else []) ++
      if call == "attr_writer" || call == "attr_accessor" then
        [region.attributeDeclaration comments (name ++ "=") [value]]
      else
        []

/-- What a call without receiver in the body of a namespace declares. -/
def callDeclarations (region : Region) (node : SyntaxNode) : List Declaration :=
  match node.name?.getD "" with
  | "include" => region.referenceDeclarations .inclusion node.arguments
  | "extend" => region.referenceDeclarations .extension node.arguments
  | "prepend" => region.referenceDeclarations .prepending node.arguments
  | "attr_reader" | "attr_writer" | "attr_accessor" | "attr" =>
      node.arguments.flatMap (region.attributeDeclarations (node.name?.getD "") node.comments)
  | _ => []

/-- Other calls declare nothing. -/
theorem callDeclarations_eq_nil
    {region : Region}
    {node : SyntaxNode}
    (isOther : node.name?.getD "" ∉ ["include", "extend", "prepend", "attr_reader", "attr_writer",
      "attr_accessor", "attr"]) :
    region.callDeclarations node = [] := by
  unfold callDeclarations
  split <;> simp_all

/-- What a node declares itself, apart from local variables. -/
def declarations (region : Region) (node : SyntaxNode) : List Declaration :=
  match node.kind with
  | .classDefinition | .moduleDefinition => (region.namespaceDeclaration? node).toList
  | .method => (region.methodDeclaration? node region.definitionScope).toList
  | .singletonMethod =>
      if (region.bodyOf? node).isSome then
        (region.methodDeclaration? node .classLevel).toList
      else
        []
  | .assignment | .operatorAssignment =>
      (node.child? .left).toList.flatMap (region.targetDeclarations node)
  | .call =>
      if (Survey.visibilityCall? region node).isNone && region.inNamespaceBody &&
          (node.child? .receiver).isNone then
        region.callDeclarations node
      else
        []
  | _ => []

/-- The declarations that a node can make in a region. -/
inductive CanDeclare (region : Region) (node : SyntaxNode) : Declaration → Prop
  | namespaceOf {declaration : Declaration}
      (isNamespace : node.kind = .classDefinition ∨ node.kind = .moduleDefinition)
      (declares : region.namespaceDeclaration? node = some declaration) :
      CanDeclare region node declaration
  | method {declaration : Declaration} {scope : Scope}
      (declares : region.methodDeclaration? node scope = some declaration) :
      CanDeclare region node declaration
  | variableOf (name path : String) (kind : DeclaredKind)
      (isVariable : kind = .instanceVariable ∨ kind = .classVariable ∨ kind = .globalVariable ∨
        kind = .constant) :
      CanDeclare region node (.under node.comments name path region.closure kind)
  | reference (name : String) (kind : ReferenceKind) (isCall : node.kind = .call)
      (inBody : region.inNamespaceBody = true) :
      CanDeclare region node
        (.under none name name region.closure (.reference kind region.gates))
  | attributeMethod (name : String) (parameters : List DeclaredParameter) :
      CanDeclare region node (region.attributeDeclaration node.comments name parameters)

section CanDeclare

variable {region : Region} {node : SyntaxNode} {declaration : Declaration}

theorem canDeclare_of_mem_targetDeclarations
    {target : SyntaxNode}
    (member : declaration ∈ region.targetDeclarations node target) :
    region.CanDeclare node declaration := by
  unfold targetDeclarations at member
  dsimp only at member
  split at member
  case h_5 => cases member
  all_goals
    cases List.mem_singleton.mp member
    exact .variableOf _ _ _ (by simp)

theorem canDeclare_of_mem_attributeDeclarations
    {call : String}
    {argument : SyntaxNode}
    (member : declaration ∈ region.attributeDeclarations call node.comments argument) :
    region.CanDeclare node declaration := by
  unfold attributeDeclarations at member
  dsimp only at member
  split at member
  · cases member
  · rcases List.mem_append.mp member with isReader | isWriter
    · split at isReader
      · cases List.mem_singleton.mp isReader
        exact .attributeMethod _ _
      · cases isReader
    · split at isWriter
      · cases List.mem_singleton.mp isWriter
        exact .attributeMethod _ _
      · cases isWriter

theorem canDeclare_of_mem_callDeclarations
    (isCall : node.kind = .call)
    (inBody : region.inNamespaceBody = true)
    (member : declaration ∈ region.callDeclarations node) :
    region.CanDeclare node declaration := by
  have ofReference {kind : ReferenceKind}
      (isReference : declaration ∈ region.referenceDeclarations kind node.arguments) :
      region.CanDeclare node declaration := by
    obtain ⟨argument, -, rfl⟩ := List.mem_map.mp isReference
    exact .reference _ _ isCall inBody
  have ofAttributes (isAttribute : declaration ∈ node.arguments.flatMap
      (region.attributeDeclarations (node.name?.getD "") node.comments)) :
      region.CanDeclare node declaration := by
    obtain ⟨argument, -, declares⟩ := List.mem_flatMap.mp isAttribute
    exact canDeclare_of_mem_attributeDeclarations declares
  unfold callDeclarations at member
  split at member
  case h_1 | h_2 | h_3 => exact ofReference member
  case h_4 | h_5 | h_6 | h_7 => exact ofAttributes member
  case h_8 => cases member

/-- A node makes no other declarations. -/
theorem canDeclare_of_mem_declarations
    (member : declaration ∈ region.declarations node) :
    region.CanDeclare node declaration := by
  unfold declarations at member
  split at member
  case h_1 isClass =>
    exact .namespaceOf (.inl isClass) (Option.mem_toList.mp member)
  case h_2 isModule =>
    exact .namespaceOf (.inr isModule) (Option.mem_toList.mp member)
  case h_3 =>
    exact .method (Option.mem_toList.mp member)
  case h_4 =>
    split at member
    · exact .method (Option.mem_toList.mp member)
    · cases member
  case h_5 | h_6 =>
    obtain ⟨target, -, declares⟩ := List.mem_flatMap.mp member
    exact canDeclare_of_mem_targetDeclarations declares
  case h_7 isCall =>
    split at member
    · next declares =>
        simp only [Bool.and_eq_true] at declares
        exact canDeclare_of_mem_callDeclarations isCall declares.1.2 member
    · cases member
  case h_8 =>
    cases member

end CanDeclare

/-- What a node and everything that is walked below it declare. -/
def declared (region : Region) (node : SyntaxNode) : List Declaration :=
  (region.walk node).flatMap fun part => part.1.declarations part.2

/-- A node declares what it declares itself, and then what its walked parts declare. -/
theorem declared_eq
    (region : Region)
    (node : SyntaxNode) :
    region.declared node =
      region.declarations node ++
        (region.walked node).flatMap fun part => part.1.declared part.2 := by
  unfold declared
  rw [walk_eq, List.flatMap_cons, List.flatMap_assoc]

end Region

/-- Methods have this visibility, but for `initialize`, which is always private. -/
def PinOf.HasDefault (pin : Pin) (default : Visibility) : Prop :=
  ∀ detail, pin.kind = .method detail →
    detail.visibility =
      if !detail.isAttribute && pin.name = "initialize" then .privateAccess else default

namespace Survey

/-- A survey has found further pins, with these declarations; new methods have a visibility. -/
def Declares (before after : Survey) (default : Visibility) (declarations : List Declaration) :
    Prop :=
  ∃ pins : List Pin, after.pins = pins.reverse ++ before.pins ∧
    pins.map Declaration.ofPin = declarations ∧ ∀ pin ∈ pins, pin.HasDefault default

namespace Declares

variable {survey : Survey} {default : Visibility}

theorem of_eq
    {before after : Survey}
    (same : after.pins = before.pins) :
    Declares before after default [] :=
  ⟨[], same, rfl, nofun⟩

theorem trans
    {first second third : Survey}
    {declarations others : List Declaration}
    (left : Declares first second default declarations)
    (right : Declares second third default others) :
    Declares first third default (declarations ++ others) := by
  obtain ⟨pins, grown, declared, visible⟩ := left
  obtain ⟨morePins, grownMore, declaredMore, visibleMore⟩ := right
  refine ⟨pins ++ morePins, ?_, ?_, List.forall_mem_append.mpr ⟨visible, visibleMore⟩⟩
  · rw [grownMore, grown, List.reverse_append, List.append_assoc]
  · rw [List.map_append, declared, declaredMore]

/-- Scopes and visibilities are no pins. -/
theorem congr
    {before after other : Survey}
    {declarations : List Declaration}
    (declares : Declares before after default declarations)
    (same : other.pins = after.pins) :
    Declares before other default declarations :=
  List.append_nil declarations ▸ declares.trans (of_eq same)

/-- A survey that declares something at every item declares it item by item. -/
theorem foldl
    {declare : Survey → α → Survey}
    {declarations : α → List Declaration}
    (keeps : ∀ survey item, (declare survey item).visibility = survey.visibility)
    (each : ∀ survey item, Declares survey (declare survey item) survey.visibility
      (declarations item))
    (survey : Survey)
    (items : List α) :
    Declares survey (items.foldl declare survey) survey.visibility
      (items.flatMap declarations) := by
  induction items generalizing survey with
  | nil =>
      exact of_eq rfl
  | cons item rest inductionHypothesis =>
      have behind := inductionHypothesis (declare survey item)
      rw [keeps] at behind
      exact (each survey item).trans behind

theorem declare
    (survey : Survey)
    (source : SourceLabel)
    (name path : String)
    (closure : Closure)
    (span : Span)
    (comments : Option String)
    (kind : PinKind)
    (isDeclared : DeclaredKind.ofKind kind ≠ .inner)
    (hasDefault : ∀ detail, kind = .method detail → detail.visibility =
      if !detail.isAttribute && name = "initialize" then .privateAccess else default) :
    Declares survey (survey.declare source name path closure span comments kind) default
      [.under comments name path closure (.ofKind kind)] := by
  refine ⟨[.declare ⟨source.number, survey.nextSerial⟩ name path closure ⟨source.filename, span⟩
    comments kind], rfl, ?_, ?_⟩
  · rw [List.map_singleton, Declaration.ofPin_declare _ _ _ _ _ _ isDeclared]
  · intro pin member
    cases List.mem_singleton.mp member
    exact hasDefault

/-- Everything but a method has no visibility. -/
theorem declareOther
    (survey : Survey)
    (source : SourceLabel)
    (name path : String)
    (closure : Closure)
    (span : Span)
    (comments : Option String)
    (kind : PinKind)
    (isDeclared : DeclaredKind.ofKind kind ≠ .inner)
    (notMethod : ∀ detail, kind ≠ .method detail) :
    Declares survey (survey.declare source name path closure span comments kind) default
      [.under comments name path closure (.ofKind kind)] :=
  declare survey source name path closure span comments kind isDeclared
    fun detail isMethod => absurd isMethod (notMethod detail)

theorem openNamespace?
    {opened : Survey}
    {source : SourceLabel}
    {region inner : Region}
    {node : SyntaxNode}
    (entered : survey.openNamespace? source region node = some (inner, opened)) :
    Declares survey opened default (region.namespaceDeclaration? node).toList := by
  cases defined : region.definedPath? node with
  | none =>
      simp [Survey.openNamespace?, defined] at entered
  | some path =>
      simp only [Survey.openNamespace?, defined, Option.bind_eq_bind, Option.bind_some,
        Option.pure_def, Option.some.injEq, Prod.mk.injEq] at entered
      obtain ⟨rfl, rfl⟩ := entered
      rw [Region.namespaceDeclaration?, defined]
      exact (declareOther survey source _ path _ node.span node.comments
        (.namespacePin _ _ _) (by simp [DeclaredKind.ofKind]) (by simp)).congr rfl

/-- The parameters of a list are declared with their documented types. -/
theorem map_parameterPins
    (survey : Survey)
    (source : SourceLabel)
    (closure : Closure)
    (doc : Docstring)
    (presence hardScope : Span)
    (list : SyntaxNode) :
    (survey.parameterPins source closure doc presence hardScope list).map
        (fun pin => (⟨pin.name, pin.kind.kind, pin.kind.index, pin.declared⟩ : DeclaredParameter)) =
      list.declaredParameters doc := by
  rw [Survey.parameterPins, SyntaxNode.declaredParameters, List.map_map]
  conv_rhs => rw [← List.zipIdx_map_fst 0 list.listedParameters, List.map_map]
  rfl

theorem openMethod?
    {opened : Survey}
    {source : SourceLabel}
    {region inner : Region}
    {node : SyntaxNode}
    {scope : Scope}
    (entered : survey.openMethod? source region node scope = some (inner, opened)) :
    Declares survey opened survey.visibility (region.methodDeclaration? node scope).toList := by
  cases named : node.name? with
  | none =>
      simp [Survey.openMethod?, named] at entered
  | some name =>
      simp only [Survey.openMethod?, named, Option.bind_eq_bind, Option.bind_some,
        Option.pure_def, Option.some.injEq, Prod.mk.injEq] at entered
      obtain ⟨rfl, rfl⟩ := entered
      rw [Region.methodDeclaration?, named]
      cases node.child? .parameters with
      | none =>
          refine (declare survey source name _ _ node.span node.comments (.method _)
            (by simp [DeclaredKind.ofKind]) ?_).congr rfl
          rintro detail ⟨⟩
          simp
      | some list =>
          rw [Option.toList_some, List.flatMap_singleton, ← map_parameterPins survey source
            (region.methodClosure name scope) _ node.span node.span list]
          have bound : Declares survey (survey.declareParameters source
              (region.methodClosure name scope) (.read (node.comments.getD "")) node.span node.span
              list).2 survey.visibility [] :=
            of_eq rfl
          refine (bound.trans (declare _ source name _ _ node.span node.comments
            (.method _) (by simp [DeclaredKind.ofKind]) ?_)).congr rfl
          rintro detail ⟨⟩
          simp [Survey.declareParameters]

/-- Opening a definition declares what it defines. -/
theorem openDefinition?
    {opened : Survey}
    {source : SourceLabel}
    {region inner : Region}
    {node : SyntaxNode}
    (entered : survey.openDefinition? source region node = some (inner, opened)) :
    Declares survey opened survey.visibility (region.declarations node) := by
  have body : region.bodyOf? node = some inner := by
    rw [← map_fst_openDefinition? survey source, entered]
    rfl
  unfold Survey.openDefinition? at entered
  unfold Region.declarations
  rw [body]
  split at entered
  · next isClass =>
      rw [isClass]
      exact openNamespace? entered
  · next isModule =>
      rw [isModule]
      exact openNamespace? entered
  · next isSingleton =>
      rw [isSingleton]
      unfold Survey.openSingletonClass? at entered
      split at entered
      · split at entered
        · cases entered
          exact of_eq rfl
        · cases entered
      · cases entered
  · next isMethod =>
      rw [isMethod]
      exact openMethod? entered
  · next isMethod =>
      rw [isMethod]
      split at entered
      · split at entered
        · exact openMethod? entered
        · cases entered
      · cases entered
  · cases entered

theorem openBlock
    (survey : Survey)
    (source : SourceLabel)
    (region : Region)
    (node : SyntaxNode) :
    Declares survey (survey.openBlock source region node).2 default [] := by
  unfold Survey.openBlock
  dsimp only
  split <;> exact of_eq rfl

/-- Locals are no declarations. -/
theorem declareBound
    (survey : Survey)
    (source : SourceLabel)
    (region : Region)
    (names : List SyntaxNode)
    (binder : SyntaxNode) :
    Declares survey (survey.declareBound source region names binder) default [] :=
  of_eq (List.foldlRecOn (motive := fun after : Survey => after.pins = survey.pins) _ _ rfl
    fun _ same _ _ => same)

theorem declareTarget
    (survey : Survey)
    (source : SourceLabel)
    (region : Region)
    (node target : SyntaxNode) :
    Declares survey (survey.declareTarget source region node target) default
      (region.targetDeclarations node target) := by
  unfold Survey.declareTarget Region.targetDeclarations
  dsimp only
  split
  · next isWord =>
      rw [isWord]
      exact of_eq rfl
  · next isList =>
      rw [isList]
      exact of_eq (List.foldlRecOn (motive := fun after : Survey => after.pins = survey.pins) _ _
        rfl fun _ same _ _ => same)
  case h_7 =>
    split
    case h_5 => exact of_eq rfl
    all_goals contradiction
  all_goals
    next isVariable =>
      rw [isVariable]
      exact declareOther _ _ _ _ _ _ _ _ nofun nofun

theorem declareReferences
    (survey : Survey)
    (source : SourceLabel)
    (region : Region)
    (kind : ReferenceKind)
    (arguments : List SyntaxNode) :
    Declares survey (survey.declareReferences source region kind arguments) survey.visibility
      (region.referenceDeclarations kind arguments) := by
  unfold Survey.declareReferences Region.referenceDeclarations
  rw [← List.flatMap_singleton' (List.map _ _), List.flatMap_map]
  refine foldl (fun survey argument => ?_) (fun survey argument => ?_) survey _
  · rfl
  · exact declareOther survey source _ _ _ _ _ (.reference _ _) nofun nofun

theorem declareReader
    (survey : Survey)
    (source : SourceLabel)
    (region : Region)
    (name : String)
    (span : Span)
    (comments : Option String) :
    Declares survey (survey.declareAttribute source region name [] span comments)
      survey.visibility [region.attributeDeclaration comments name []] := by
  refine declare survey source name _ _ span comments (.method _) nofun ?_
  rintro detail ⟨⟩
  rfl

theorem declareWriter
    (survey : Survey)
    (source : SourceLabel)
    (region : Region)
    (name : String)
    (span : Span)
    (comments : Option String) :
    Declares survey (survey.declareWriter source region name span comments) survey.visibility
      [region.attributeDeclaration comments (name ++ "=")
        [⟨"value", .required, 0, (Docstring.read (comments.getD "")).returnType?.getD []⟩]] := by
  refine declare { survey with nextSerial := survey.nextSerial + 1 } source (name ++ "=") _ _ span
    comments (.method _) nofun ?_
  rintro detail ⟨⟩
  rfl

theorem declareAttributes
    (survey : Survey)
    (source : SourceLabel)
    (region : Region)
    (call : String)
    (arguments : List SyntaxNode)
    (comments : Option String) :
    Declares survey (survey.declareAttributes source region call arguments comments)
      survey.visibility (arguments.flatMap (region.attributeDeclarations call comments)) := by
  unfold Survey.declareAttributes
  refine foldl (fun survey argument => ?_) (fun survey argument => ?_) survey arguments
  · dsimp only
    split
    · rfl
    · split <;> split <;> rfl
  · unfold Region.attributeDeclarations
    dsimp only
    split
    · exact of_eq rfl
    · have reader := declareReader survey source region (symbolName argument.text) argument.span
        comments
      have writer (survey : Survey) := declareWriter survey source region
        (symbolName argument.text) argument.span comments
      by_cases reads : call != "attr_writer" <;>
        by_cases writes : call == "attr_writer" || call == "attr_accessor" <;>
          simp only [reads, writes, if_true, if_false, Bool.false_eq_true, List.append_nil,
            List.nil_append]
      · exact reader.trans (writer _)
      · exact reader
      · exact writer survey
      · exact of_eq rfl

theorem declareByCall
    (survey : Survey)
    (source : SourceLabel)
    (region : Region)
    (node : SyntaxNode) :
    Declares survey (survey.declareByCall source region node) survey.visibility
      (region.callDeclarations node) := by
  unfold Survey.declareByCall
  split
  case h_1 | h_2 | h_3 =>
    next isCall =>
      unfold Region.callDeclarations
      rw [isCall]
      exact declareReferences _ _ _ _ _
  case h_4 | h_5 | h_6 | h_7 =>
    next isCall =>
      unfold Region.callDeclarations
      rw [isCall]
      exact declareAttributes _ _ _ _ _ _
  case h_8 =>
    rw [Region.callDeclarations_eq_nil (by simp_all)]
    exact of_eq rfl

/-- A node declares its own declarations, and its methods have the visibility in force. -/
theorem enter
    (survey : Survey)
    (source : SourceLabel)
    (region : Region)
    (node : SyntaxNode) :
    Declares survey (survey.enter source region node) survey.visibility
      (region.declarations node) := by
  cases body : region.bodyOf? node with
  | some inner =>
      obtain ⟨opened, entered⟩ := openDefinition?_of_bodyOf? survey source body
      rw [enter_of_openDefinition? entered]
      exact openDefinition? entered
  | none =>
      have notOpened : survey.openDefinition? source region node = none := by
        rw [← Option.map_eq_none_iff, map_fst_openDefinition?, body]
      unfold Survey.enter Region.declarations
      rw [notOpened, body]
      unfold Region.bodyOf? at body
      split
      case h_1 | h_2 =>
        next isDefinition =>
          rw [isDefinition] at body ⊢
          rw [Region.namespaceDeclaration?, Option.map_eq_none_iff.mp body]
          exact of_eq rfl
      case h_3 =>
        next isSingleton =>
          rw [isSingleton]
          exact of_eq rfl
      case h_4 =>
        next isMethod =>
          rw [isMethod] at body ⊢
          rw [Region.methodDeclaration?, Option.map_eq_none_iff.mp body]
          exact of_eq rfl
      case h_5 =>
        next isMethod =>
          rw [isMethod]
          exact of_eq rfl
      case h_6 | h_7 =>
        next isAssignment =>
          rw [isAssignment]
          dsimp only
          cases node.child? .left with
          | none =>
              exact of_eq rfl
          | some target =>
              rw [Option.toList_some, List.flatMap_singleton]
              dsimp only
              split
              · exact declareTarget survey source region node target
              · next notDeclared =>
                  rw [Region.targetDeclarations_eq_nil (Bool.eq_false_iff.mpr notDeclared)]
                  exact of_eq rfl
      case h_8 =>
        next isCall =>
          rw [isCall]
          dsimp only
          cases visibilityCall? region node with
          | some visibility =>
              exact of_eq rfl
          | none =>
              simp only [Option.isNone_none, Bool.true_and]
              split
              · exact declareByCall survey source region node
              · exact of_eq rfl
      case h_9 | h_10 =>
        next isBlock =>
          rw [isBlock]
          exact openBlock survey source region node
      case h_11 =>
        next isVariable =>
          rw [isVariable]
          exact declareBound survey source region node.identifiers node
      case h_12 =>
        next isLoop =>
          rw [isLoop]
          unfold Survey.declareLoopTargets
          split
          · exact declareBound _ _ _ _ _
          · exact of_eq rfl
      case h_13 =>
        split
        case h_8 => exact of_eq rfl
        all_goals contradiction

end Declares

/-- Another visibility for a method changes no declaration. -/
theorem map_ofPin_setVisibilityOfFirst
    (visibility : Visibility)
    (isMeant : Pin → Bool)
    (pins : List Pin) :
    (setVisibilityOfFirst visibility isMeant pins).map Declaration.ofPin =
      pins.map Declaration.ofPin := by
  refine map_setVisibilityOfFirst_of_eq (fun pin detail visibility isMethod => ?_) _ _ _
  simp only [Declaration.ofPin, isMethod]
  rfl

/-- A survey lists what the entered nodes declare. -/
theorem isListed_declarations
    (source : SourceLabel) :
    IsListed source (fun survey => survey.pins.reverse.map Declaration.ofPin)
      Region.declarations where
  withVisibility _ _ := rfl
  setVisibility _ _ _ _ := by
    rw [List.map_reverse, List.map_reverse, setVisibility, map_ofPin_setVisibilityOfFirst]
  enter survey region node := by
    obtain ⟨pins, grown, declared, -⟩ := Declares.enter survey source region node
    rw [grown, List.reverse_append, List.reverse_reverse, List.map_append, declared]

end Survey

end TagCheck
