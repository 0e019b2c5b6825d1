import TagCheck.CoreLibrary.Stub
import TagCheck.Proofs.Outline.Places
import TagCheck.Proofs.Tree.CommentRuns

namespace TagCheck

/-!
# A visibility call around a definition

A call such as `private def m; end` takes the place of a definition among the statements of a body.  The
same methods are declared, but the comment above documents the call and not the definition inside.
-/

namespace SyntaxNode

/-- Two nodes that begin on one line are documented by the same comment. -/
theorem comments_documented_congr
    {node other : SyntaxNode}
    (sameLine : node.span.start.line = other.span.start.line)
    (sameComments : node.comments = other.comments)
    (above : List SyntaxNode) :
    (node.documented above).comments = (other.documented above).comments := by
  have sameEnd : endsAbove (commentsAbove above) node = endsAbove (commentsAbove above) other := by
    simp only [endsAbove, sameLine]
  unfold documented
  rw [sameEnd]
  split
  · rfl
  · exact sameComments

/-- A `def`, or a call that defines attributes. -/
def IsMethodDefinition (node : SyntaxNode) : Prop :=
  node.kind = .method ∨ node.kind = .singletonMethod ∨
    node.kind = .call ∧ node.name?.getD "" ∈ ["attr_reader", "attr_writer", "attr_accessor", "attr"]

end SyntaxNode

/-- A call in a region that gives a definition a visibility, in the place of the definition. -/
structure VisibilityCall (region : Region) (definition : SyntaxNode) where
  call : SyntaxNode
  argument : SyntaxNode
  visibility : Visibility
  isCall : call.kind = .call
  asks : Survey.visibilityCall? region call = some visibility
  arguments_eq : call.arguments = [argument]
  /-- The argument is the definition, somewhere else in the file. -/
  sameTree : argument.unplaced = definition.unplaced
  sameLine : call.span.start.line = definition.span.start.line
  undocumented : call.comments = none

namespace Region

variable {region : Region}

theorem declarations_of_method
    {node : SyntaxNode}
    (isMethod : node.kind = .method) :
    region.declarations node = (region.methodDeclaration? node region.definitionScope).toList := by
  rw [declarations, isMethod]

theorem declarations_of_singletonMethod
    {node : SyntaxNode}
    (isMethod : node.kind = .singletonMethod) :
    region.declarations node =
      if (region.bodyOf? node).isSome then
        (region.methodDeclaration? node .classLevel).toList
      else
        [] := by
  rw [declarations, isMethod]

/-- A call that defines attributes declares them if it stands in a body and has no receiver. -/
theorem declarations_of_attributes
    {node : SyntaxNode}
    (isCall : node.kind = .call)
    (isAttributes : node.name?.getD "" ∈ ["attr_reader", "attr_writer", "attr_accessor", "attr"]) :
    region.declarations node =
      if (Survey.visibilityCall? region node).isNone && region.inNamespaceBody &&
          (node.child? .receiver).isNone then
        node.arguments.flatMap
          (region.attributeDeclarations (node.name?.getD "") node.comments)
      else
        [] := by
  have declared : region.callDeclarations node =
      node.arguments.flatMap
        (region.attributeDeclarations (node.name?.getD "") node.comments) := by
    simp only [List.mem_cons, List.not_mem_nil, or_false] at isAttributes
    unfold callDeclarations
    rcases isAttributes with named | named | named | named <;>
      rw [named] <;> rfl
  rw [declarations, isCall, ← declared]

/-- What is seen of the declarations is the same under another comment if it is for each of them. -/
theorem map_declarations_withComments
    {view : Declaration → α}
    {node : SyntaxNode}
    {comments : Option String}
    (isDefinition : node.IsMethodDefinition)
    (ofMethod : ∀ scope, (region.methodDeclaration? { node with comments } scope).map view =
      (region.methodDeclaration? node scope).map view)
    (ofAttributes : ∀ call argument,
      (region.attributeDeclarations call comments argument).map view =
        (region.attributeDeclarations call node.comments argument).map view) :
    (region.declarations { node with comments }).map view =
      (region.declarations node).map view := by
  rcases isDefinition with isMethod | isMethod | ⟨isCall, isAttributes⟩
  · rw [declarations_of_method isMethod, declarations_of_method ?isMethod, ← Option.toList_map,
      ofMethod, Option.toList_map]
    case isMethod => exact isMethod
  · have sameBody : region.bodyOf? { node with comments } = region.bodyOf? node := rfl
    rw [declarations_of_singletonMethod isMethod, declarations_of_singletonMethod ?isMethod,
      sameBody]
    case isMethod => exact isMethod
    split
    · rw [← Option.toList_map, ofMethod, Option.toList_map]
    · rfl
  · have sameCall : Survey.visibilityCall? region { node with comments } =
        Survey.visibilityCall? region node := rfl
    have sameReceiver (field : NodeField) :
        ({ node with comments } : SyntaxNode).child? field = node.child? field := rfl
    rw [declarations_of_attributes isCall isAttributes, declarations_of_attributes ?isCall ?named,
      sameCall, sameReceiver]
    case isCall => exact isCall
    case named => exact isAttributes
    split
    · rw [List.map_flatMap, List.map_flatMap]
      exact List.flatMap_congr fun argument _ => ofAttributes _ argument
    · rfl

/-- What a definition declares depends on its comment only as far as the comment documents it. -/
theorem declarations_withComments
    {node : SyntaxNode}
    (isDefinition : node.IsMethodDefinition)
    {comments : Option String}
    (sameDoc : Docstring.read (comments.getD "") = Docstring.read (node.comments.getD "")) :
    region.declarations { node with comments } = region.declarations node := by
  rw [← List.map_id (region.declarations _), ← List.map_id (region.declarations node)]
  refine map_declarations_withComments isDefinition (fun scope => ?_) (fun call argument => ?_)
  · simp only [methodDeclaration?, Declaration.under, sameDoc]
    rfl
  · simp only [attributeDeclarations, attributeDeclaration, Declaration.under, sameDoc]

/-- Names and paths do not depend on comments at all. -/
theorem map_name_declarations_withComments
    {node : SyntaxNode}
    (isDefinition : node.IsMethodDefinition)
    (comments : Option String) :
    (region.declarations { node with comments }).map (fun method => (method.name, method.path)) =
      (region.declarations node).map fun method => (method.name, method.path) := by
  refine map_declarations_withComments isDefinition (fun scope => ?_) (fun call argument => ?_)
  · rw [methodDeclaration?, methodDeclaration?, Option.map_map, Option.map_map]
    rfl
  · unfold attributeDeclarations
    dsimp only
    split
    · rfl
    · by_cases reads : call != "attr_writer" <;>
        by_cases writes : call == "attr_writer" || call == "attr_accessor" <;>
          simp [reads, writes, attributeDeclaration, Declaration.under]

/-- Every method of a definition has the documentation of the comment above. -/
theorem declarations_of_isMethodDefinition
    {node : SyntaxNode}
    (isDefinition : node.IsMethodDefinition)
    {declaration : Declaration}
    (member : declaration ∈ region.declarations node) :
    declaration.isMethod = true ∧ declaration.doc = Docstring.read (node.comments.getD "") := by
  have ofMethod {scope : Scope}
      (member : declaration ∈ (region.methodDeclaration? node scope).toList) :
      declaration.isMethod = true ∧ declaration.doc = Docstring.read (node.comments.getD "") := by
    obtain ⟨_, -, rfl⟩ := Option.map_eq_some_iff.mp (Option.mem_toList.mp member)
    exact ⟨rfl, rfl⟩
  rcases isDefinition with isMethod | isMethod | ⟨isCall, isAttributes⟩
  · exact ofMethod (declarations_of_method isMethod ▸ member)
  · rw [declarations_of_singletonMethod isMethod] at member
    split at member
    · exact ofMethod member
    · cases member
  · rw [declarations_of_attributes isCall isAttributes] at member
    split at member
    · obtain ⟨argument, -, isAttribute⟩ := List.mem_flatMap.mp member
      unfold attributeDeclarations at isAttribute
      dsimp only at isAttribute
      split at isAttribute
      · cases isAttribute
      · rcases List.mem_append.mp isAttribute with isReader | isWriter
        · split at isReader
          · cases List.mem_singleton.mp isReader
            exact ⟨rfl, rfl⟩
          · cases isReader
        · split at isWriter
          · cases List.mem_singleton.mp isWriter
            exact ⟨rfl, rfl⟩
          · cases isWriter
    · cases member

/-- Everything that a definition itself declares is a method. -/
theorem filter_declared_of_isMethodDefinition
    {node : SyntaxNode}
    (isDefinition : node.IsMethodDefinition) :
    (region.declared node).filter Declaration.isMethod =
      region.declarations node ++
        ((region.walked node).flatMap fun part => part.1.declared part.2).filter
          Declaration.isMethod := by
  rw [declared_eq, List.filter_append, List.filter_eq_self.mpr fun declaration member =>
    (declarations_of_isMethodDefinition isDefinition member).1]

/-- A comment shows in the declarations if it documents anything and there are any. -/
theorem declarations_eq_withComments_iff
    {node : SyntaxNode}
    (isDefinition : node.IsMethodDefinition)
    (undocumented : node.comments = none)
    (comments : Option String) :
    region.declarations node = region.declarations { node with comments } ↔
      Docstring.read (comments.getD "") = Docstring.read "" ∨ region.declarations node = [] := by
  have isDocumented : SyntaxNode.IsMethodDefinition { node with comments } := isDefinition
  constructor
  · intro same
    cases own : region.declarations node with
    | nil =>
        exact Or.inr rfl
    | cons method rest =>
        have member : method ∈ region.declarations node := own ▸ List.mem_cons_self
        have docAlone := (declarations_of_isMethodDefinition isDefinition member).2
        have docBelow := (declarations_of_isMethodDefinition isDocumented (same ▸ member)).2
        rw [docAlone, undocumented] at docBelow
        exact Or.inl docBelow.symm
  · rintro (sameDoc | nothing)
    · exact (declarations_withComments isDefinition (undocumented ▸ sameDoc)).symm
    · have sameNames := @map_name_declarations_withComments region _ isDefinition comments
      rw [nothing, List.map_nil, List.map_eq_nil_iff] at sameNames
      rw [nothing, sameNames]

end Region

namespace VisibilityCall

variable {region : Region} {definition : SyntaxNode} (wrapped : VisibilityCall region definition)

/-- The call declares what the definition declares without its comment. -/
theorem declared_call
    (isDefinition : definition.IsMethodDefinition)
    (comments : Option String) :
    region.declared { wrapped.call with comments } = region.declared definition := by
  have notLiteral : wrapped.argument.isMethodNameLiteral = false := by
    rw [← SyntaxNode.keeps_unplaced.isMethodNameLiteral, wrapped.sameTree,
      SyntaxNode.keeps_unplaced.isMethodNameLiteral]
    unfold SyntaxNode.isMethodNameLiteral
    rcases isDefinition with isMethod | isMethod | ⟨isCall, -⟩ <;> simp [*]
  have asks : Survey.visibilityCall? region { wrapped.call with comments } =
      some wrapped.visibility :=
    wrapped.asks
  have arguments_eq : ({ wrapped.call with comments } : SyntaxNode).arguments = [wrapped.argument] :=
    wrapped.arguments_eq
  have declaresNothing : region.declarations { wrapped.call with comments } = [] := by
    rw [Region.declarations, wrapped.isCall, asks]
    rfl
  have walksArgument :
      region.walked { wrapped.call with comments } = [(region, wrapped.argument)] := by
    rw [Region.walked, wrapped.isCall, asks, arguments_eq, List.filter_singleton, notLiteral]
    rfl
  rw [Region.declared_eq, declaresNothing, walksArgument, List.nil_append, List.flatMap_singleton]
  exact Region.declared_congr rfl wrapped.sameTree

end VisibilityCall

namespace Survey

/-- The methods that the walk over a node finds. -/
def methodsFound (source : SourceLabel) (region : Region) (node : SyntaxNode) (survey : Survey) :
    List Declaration :=
  ((((visit source region node survey).pins.reverse.drop survey.pins.length).map
    Declaration.ofPin).filter Declaration.isMethod)

theorem methodsFound_eq
    (source : SourceLabel)
    (region : Region)
    (node : SyntaxNode)
    (survey : Survey) :
    methodsFound source region node survey =
      (region.declared node).filter Declaration.isMethod := by
  have listed := (isListed_declarations source).visit region node survey
  rw [methodsFound, List.map_drop, listed, List.drop_left' (by simp)]
  rfl

/--
A visibility call around a definition leaves the names and paths of its methods as they are, and the
methods as a whole exactly if the comment above the definition documents nothing.
-/
theorem methodsFound_visibilityCall_iff
    {region other : Region}
    {definition : SyntaxNode}
    (isDefinition : definition.IsMethodDefinition)
    (undocumented : definition.comments = none)
    (wrapped : VisibilityCall region definition)
    (sameRegion : other.unplaced = region.unplaced)
    (above : List SyntaxNode)
    (source otherSource : SourceLabel)
    (survey otherSurvey : Survey) :
    let inCall := methodsFound source region (wrapped.call.documented above) survey
    let alone := methodsFound otherSource other (definition.documented above) otherSurvey
    inCall.map (fun method => (method.name, method.path)) =
        alone.map (fun method => (method.name, method.path)) ∧
      (inCall = alone ↔
        Docstring.read ((definition.documented above).comments.getD "") = Docstring.read "" ∨
          region.declarations definition = []) := by
  intro inCall alone
  obtain ⟨comments, isComment⟩ : ∃ comments, (definition.documented above).comments = comments :=
    ⟨_, rfl⟩
  have sameComments : (wrapped.call.documented above).comments = comments :=
    isComment ▸ SyntaxNode.comments_documented_congr wrapped.sameLine
      (wrapped.undocumented.trans undocumented.symm) above
  -- Both walks find the same below the definition.
  obtain ⟨nested, isNested⟩ : ∃ nested,
      ((region.walked definition).flatMap fun part => part.1.declared part.2).filter
        Declaration.isMethod = nested :=
    ⟨_, rfl⟩
  have inCall_eq : inCall = region.declarations definition ++ nested := by
    rw [← isNested, ← Region.filter_declared_of_isMethodDefinition isDefinition,
      ← wrapped.declared_call isDefinition comments, ← sameComments,
      ← SyntaxNode.documented_eq, ← methodsFound_eq]
  have alone_eq : alone = region.declarations { definition with comments } ++ nested := by
    have isDocumented : SyntaxNode.IsMethodDefinition { definition with comments } := isDefinition
    have sameWalked : region.walked { definition with comments } = region.walked definition := rfl
    rw [← isNested, ← sameWalked,
      ← Region.filter_declared_of_isMethodDefinition isDocumented, ← isComment,
      ← SyntaxNode.documented_eq, ← Region.declared_congr sameRegion rfl, ← methodsFound_eq]
  rw [inCall_eq, alone_eq, isComment]
  refine ⟨?_, ?_⟩
  · rw [List.map_append, List.map_append,
      Region.map_name_declarations_withComments isDefinition comments]
  · rw [List.append_left_inj]
    exact Region.declarations_eq_withComments_iff isDefinition undocumented comments

end Survey

namespace DocumentedCall

open Stub.Layout

/-- The comment `# @return [String]`. -/
def comment : SyntaxNode :=
  leaf .comment none ⟨1, 2⟩ "# @return [String]"

/-- The definition `def bar; end`, which begins at a column. -/
def definition (column : Nat) : SyntaxNode :=
  branch .method none ⟨2, column⟩ ⟨2, column + 12⟩
    [leaf .identifier (some .name) ⟨2, column + 4⟩ "bar"]

/-- The call `private def bar; end`. -/
def call : SyntaxNode :=
  branch .call none ⟨2, 2⟩ ⟨2, 22⟩
    [leaf .identifier (some .method) ⟨2, 2⟩ "private",
      branch .argumentList (some .arguments) ⟨2, 10⟩ ⟨2, 22⟩ [definition 10]]

/-- The body of the class `Foo`. -/
def body : Region :=
  (Region.ofProgram ⟨⟨0, 0⟩, ⟨4, 0⟩⟩).ofNamespace "Foo" ⟨⟨0, 0⟩, ⟨3, 3⟩⟩

def wrapped : VisibilityCall body (definition 2) where
  call := call
  argument := definition 10
  visibility := .privateAccess
  isCall := rfl
  asks := rfl
  arguments_eq := rfl
  sameTree := rfl
  sameLine := rfl
  undocumented := rfl

/-- A survey that has found nothing yet. -/
def start : Survey :=
  ⟨[], [], [], .publicAccess, 1⟩

/-- Without a comment above, the call changes nothing. -/
theorem methodsFound_undocumented :
    Survey.methodsFound ⟨"foo.rb", 1⟩ body (wrapped.call.documented []) start =
      Survey.methodsFound ⟨"foo.rb", 1⟩ body ((definition 2).documented []) start :=
  (Survey.methodsFound_visibilityCall_iff (Or.inl rfl) rfl wrapped rfl [] ⟨"foo.rb", 1⟩
    ⟨"foo.rb", 1⟩ start start).2.mpr (Or.inl (congrArg Docstring.read rfl))

/-- Behind the comment, the method inside the call has lost its return type. -/
theorem methodsFound_documented_ne :
    ¬∀ (region : Region) (definition : SyntaxNode) (wrapped : VisibilityCall region definition)
      (above : List SyntaxNode) (source : SourceLabel) (survey : Survey),
      definition.IsMethodDefinition → definition.comments = none →
        Survey.methodsFound source region (wrapped.call.documented above) survey =
          Survey.methodsFound source region (definition.documented above) survey := by
  intro same
  have sameTypes := congrArg (List.map fun method => method.type.length)
    (same body (definition 2) wrapped [comment] ⟨"foo.rb", 1⟩ start (Or.inl rfl) rfl)
  exact absurd sameTypes (by decide +kernel)

end DocumentedCall

end TagCheck
