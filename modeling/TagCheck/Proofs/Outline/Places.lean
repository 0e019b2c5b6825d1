import Mathlib.Data.List.Forall2
import TagCheck.Proofs.Outline.Declarations

namespace TagCheck

/-!
# Changes of trees that a survey does not see

What a node declares itself follows from the node and from few nodes below it, and not from where they
stand in the file.  So a change of trees that keeps every node, and the children of every node but of a
class or a module, changes neither the declarations of a node nor the way of the walk below it.
-/

namespace SyntaxNode

/-- A class or a module, in a place where nothing else reads its children. -/
def isNamespaceBody (node : SyntaxNode) : Bool :=
  (node.kind = .classDefinition || node.kind = .moduleDefinition) &&
    node.field ∉ [some .arguments, some .parameters, some .superclass]

/-- A change of trees that keeps the nodes, but not the statements of classes and modules. -/
structure Keeps (change : SyntaxNode → SyntaxNode) : Prop where
  kind (node : SyntaxNode) : (change node).kind = node.kind
  field (node : SyntaxNode) : (change node).field = node.field
  text? (node : SyntaxNode) : (change node).text? = node.text?
  comments (node : SyntaxNode) : (change node).comments = node.comments
  child? (node : SyntaxNode) (role : NodeField) :
    role ≠ .body → (change node).child? role = (node.child? role).map change
  children (node : SyntaxNode) :
    node.isNamespaceBody = false → (change node).children = node.children.map change

theorem child?_eq_some
    {node child : SyntaxNode}
    {role : NodeField}
    (found : node.child? role = some child) :
    child.field = some role := by
  simpa using List.find?_some found

namespace Keeps

variable {change : SyntaxNode → SyntaxNode} (kept : Keeps change) (node : SyntaxNode)
include kept

theorem text : (change node).text = node.text := by
  rw [SyntaxNode.text, kept.text?, SyntaxNode.text]

theorem isStatement : (change node).isStatement = node.isStatement := by
  rw [SyntaxNode.isStatement, kept.field, SyntaxNode.isStatement]

variable {node}

theorem statements
    (sameChildren : (change node).children = node.children.map change) :
    (change node).statements = node.statements.map change := by
  simp only [SyntaxNode.statements, sameChildren, List.filter_map, Function.comp_def,
    kept.isStatement]

theorem identifiers
    (sameChildren : (change node).children = node.children.map change) :
    (change node).identifiers = node.identifiers.map change := by
  simp only [SyntaxNode.identifiers, sameChildren, List.filter_map, Function.comp_def, kept.kind]

/-- A list in such a role keeps its children. -/
theorem children_of_child?
    {child : SyntaxNode}
    {role : NodeField}
    (isList : role ∈ [.arguments, .parameters, .superclass])
    (found : node.child? role = some child) :
    (change child).children = child.children.map change := by
  refine kept.children child ?_
  have inRole := child?_eq_some found
  unfold isNamespaceBody
  rw [inRole]
  simp only [List.mem_cons, List.not_mem_nil, or_false] at isList
  rcases isList with rfl | rfl | rfl <;> simp

variable (node)

theorem arguments : (change node).arguments = node.arguments.map change := by
  unfold SyntaxNode.arguments
  rw [kept.child? node .arguments (by decide)]
  cases found : node.child? .arguments with
  | none =>
      rfl
  | some list =>
      exact kept.statements (kept.children_of_child? (by simp) found)

theorem name? : (change node).name? = node.name? := by
  have sameText : ∀ named, SyntaxNode.text (change named) = named.text := kept.text
  simp only [SyntaxNode.name?, nameNode?, kept.child? node .name (by decide),
    kept.child? node .method (by decide)]
  cases node.child? .name with
  | some named =>
      simp [sameText]
  | none =>
      cases node.child? .method <;> simp [sameText]

theorem isConstantPath : (change node).isConstantPath = node.isConstantPath := by
  rw [SyntaxNode.isConstantPath, kept.kind, SyntaxNode.isConstantPath]

theorem isMethodNameLiteral : (change node).isMethodNameLiteral = node.isMethodNameLiteral := by
  rw [SyntaxNode.isMethodNameLiteral, kept.kind, SyntaxNode.isMethodNameLiteral]

theorem superclassName? : (change node).superclassName? = node.superclassName? := by
  have sameSuperclass : (change node).superclass? = node.superclass?.map change := by
    unfold superclass?
    rw [kept.child? node .superclass (by decide)]
    cases found : node.child? .superclass with
    | none =>
        rfl
    | some clause =>
        rw [Option.map_some, Option.bind_some, Option.bind_some,
          kept.statements (kept.children_of_child? (by simp) found), List.head?_map]
  unfold SyntaxNode.superclassName?
  rw [sameSuperclass]
  cases node.superclass? with
  | none =>
      rfl
  | some superclass =>
      simp only [Option.map_some, kept.isConstantPath, kept.text]

theorem parameterKind? : (change node).parameterKind? = node.parameterKind? := by
  unfold SyntaxNode.parameterKind?
  rw [kept.kind, kept.child? node .value (by decide), Option.isSome_map]

theorem boundParameters :
    (change node).boundParameters =
      node.boundParameters.map fun (name, kind, parameter) => (name, kind, change parameter) := by
  have sameName (kind : ParameterKind) :
      (change node).parameterName kind = node.parameterName kind := by
    simp only [parameterName, kept.text, kept.name?]
  unfold SyntaxNode.boundParameters
  rw [kept.kind, kept.parameterKind?]
  split
  · next isDestructured =>
      rw [kept.identifiers (kept.children node (by simp [isNamespaceBody, isDestructured]))]
      simp [kept.text]
  · cases node.parameterKind? with
    | none =>
        rfl
    | some kind =>
        simp only [sameName]
        split <;> rfl

/-- What a list of parameters declares is kept. -/
theorem declaredParameters
    (sameChildren : (change node).children = node.children.map change)
    (doc : Docstring) :
    (change node).declaredParameters doc = node.declaredParameters doc := by
  simp only [SyntaxNode.declaredParameters, listedParameters, sameChildren, List.zipIdx_map,
    List.flatMap_map, List.map_flatMap, List.map_map, Prod.map_fst, Prod.map_snd,
    kept.boundParameters]
  rfl

end Keeps

end SyntaxNode

namespace Region

/-- A region without the spans that bound its locals. -/
def unplaced (region : Region) : Region :=
  { region with hardScope := default, presence := default }

/-- Regions that are the same but for their spans differ in their spans only. -/
theorem exists_eq_of_unplaced
    {region other : Region}
    (sameRegion : other.unplaced = region.unplaced) :
    ∃ hardScope presence, other = { region with hardScope, presence } := by
  refine ⟨other.hardScope, other.presence, ?_⟩
  cases region
  cases other
  simp only [unplaced, mk.injEq, true_and] at sameRegion
  obtain ⟨rfl, rfl, rfl, rfl⟩ := sameRegion
  rfl

/-- A walked part is the changed one of another walk, in the same region but for its spans. -/
def Follows (change : SyntaxNode → SyntaxNode) (moved part : Region × SyntaxNode) : Prop :=
  moved.1.unplaced = part.1.unplaced ∧ moved.2 = change part.2

theorem forall₂_follows_map
    {change : SyntaxNode → SyntaxNode}
    {region other : Region}
    (sameRegion : other.unplaced = region.unplaced)
    (nodes : List SyntaxNode) :
    List.Forall₂ (Follows change) ((nodes.map change).map (other, ·)) (nodes.map (region, ·)) := by
  rw [List.map_map, List.forall₂_map_left_iff, List.forall₂_map_right_iff]
  exact List.forall₂_same.mpr fun node _ => ⟨sameRegion, rfl⟩

end Region

namespace SyntaxNode.Keeps

variable {change : SyntaxNode → SyntaxNode} (kept : Keeps change)
variable (region : Region) (node : SyntaxNode)
include kept

theorem definedPath? : region.definedPath? (change node) = region.definedPath? node := by
  unfold Region.definedPath?
  rw [kept.child? node .name (by decide)]
  cases node.child? .name with
  | none =>
      rfl
  | some name =>
      simp only [Option.map_some, kept.text]

theorem visibilityCall? :
    Survey.visibilityCall? region (change node) = Survey.visibilityCall? region node := by
  simp only [Survey.visibilityCall?, kept.child? node .receiver (by decide), kept.name?,
    Option.isNone_map]

variable {region} {other : Region}

theorem methodBody?
    (sameRegion : other.unplaced = region.unplaced)
    (scope : Scope) :
    (other.methodBody? (change node) scope).map Region.unplaced =
      (region.methodBody? node scope).map Region.unplaced := by
  obtain ⟨hardScope, presence, rfl⟩ := Region.exists_eq_of_unplaced sameRegion
  unfold Region.methodBody?
  rw [kept.name?, Option.map_map, Option.map_map]
  rfl

/-- The body of a definition is the same but for its spans. -/
theorem bodyOf?
    (sameRegion : other.unplaced = region.unplaced) :
    (other.bodyOf? (change node)).map Region.unplaced =
      (region.bodyOf? node).map Region.unplaced := by
  have sameMethod := kept.methodBody? node sameRegion
  obtain ⟨hardScope, presence, rfl⟩ := Region.exists_eq_of_unplaced sameRegion
  unfold Region.bodyOf?
  rw [kept.kind]
  split
  case h_1 | h_2 =>
    rw [kept.definedPath?, Option.map_map, Option.map_map]
    rfl
  case h_3 =>
    rw [kept.child? node .value (by decide)]
    cases node.child? .value with
    | none =>
        rfl
    | some value =>
        simp only [Option.map_some, Option.bind_some, kept.kind]
        split <;> rfl
  case h_4 =>
    exact sameMethod _
  case h_5 =>
    rw [kept.child? node .object (by decide)]
    cases node.child? .object with
    | none =>
        rfl
    | some object =>
        simp only [Option.map_some, Option.bind_some, kept.kind]
        split
        · exact sameMethod _
        · rfl
  case h_6 =>
    rfl

/-- The walk over a node takes the same way if its children are kept. -/
theorem walked
    (sameRegion : other.unplaced = region.unplaced)
    (sameChildren : (change node).children = node.children.map change) :
    List.Forall₂ (Region.Follows change) (other.walked (change node)) (region.walked node) := by
  have sameBody := kept.bodyOf? node sameRegion
  unfold Region.walked
  rw [kept.kind]
  split
  case h_1 | h_2 | h_3 | h_4 | h_5 =>
    rw [kept.statements sameChildren]
    cases body : region.bodyOf? node with
    | none =>
        rw [body, Option.map_none, Option.map_eq_none_iff] at sameBody
        rw [sameBody]
        exact List.Forall₂.nil
    | some inner =>
        rw [body, Option.map_some, Option.map_eq_some_iff] at sameBody
        obtain ⟨otherInner, otherBody, sameInner⟩ := sameBody
        rw [otherBody]
        exact Region.forall₂_follows_map sameInner _
  case h_6 | h_7 =>
    have sameTargets :
        ((change node).child? .left).toList.filter
            (fun target => !Survey.isDeclaredTarget target.kind) =
          ((node.child? .left).toList.filter fun target =>
            !Survey.isDeclaredTarget target.kind).map change := by
      rw [kept.child? node .left (by decide), Option.toList_map, List.filter_map]
      simp only [Function.comp_def, kept.kind]
    dsimp only
    rw [sameTargets, kept.child? node .right (by decide), Option.toList_map, ← List.map_append]
    exact Region.forall₂_follows_map sameRegion _
  case h_8 =>
    have sameCall : Survey.visibilityCall? other (change node) =
        Survey.visibilityCall? region node := by
      obtain ⟨hardScope, presence, rfl⟩ := Region.exists_eq_of_unplaced sameRegion
      exact kept.visibilityCall? region node
    rw [sameCall]
    split
    · rw [kept.arguments, List.filter_map]
      simp only [Function.comp_def, kept.isMethodNameLiteral]
      exact Region.forall₂_follows_map sameRegion _
    · rw [sameChildren]
      exact Region.forall₂_follows_map sameRegion _
  case h_9 =>
    have sameBody : other.inNamespaceBody = region.inNamespaceBody := by
      obtain ⟨hardScope, presence, rfl⟩ := Region.exists_eq_of_unplaced sameRegion
      rfl
    rw [sameBody]
    split
    · exact List.Forall₂.nil
    · rw [sameChildren]
      exact Region.forall₂_follows_map sameRegion _
  case h_10 | h_11 =>
    have sameBlock : (other.ofBlock (change node).span).unplaced =
        (region.ofBlock node.span).unplaced := by
      obtain ⟨hardScope, presence, rfl⟩ := Region.exists_eq_of_unplaced sameRegion
      rfl
    rw [sameChildren, List.filter_map]
    simp only [Function.comp_def, kept.field]
    exact Region.forall₂_follows_map sameBlock _
  case h_12 =>
    exact List.Forall₂.nil
  case h_13 =>
    rw [sameChildren, List.filter_map]
    simp only [Function.comp_def, kept.field]
    exact Region.forall₂_follows_map sameRegion _
  case h_14 =>
    rw [sameChildren]
    exact Region.forall₂_follows_map sameRegion _

theorem methodDeclaration?
    (region : Region)
    (scope : Scope) :
    region.methodDeclaration? (change node) scope = region.methodDeclaration? node scope := by
  have sameParameters (doc : Docstring) :
      ((change node).child? .parameters).toList.flatMap (·.declaredParameters doc) =
        (node.child? .parameters).toList.flatMap (·.declaredParameters doc) := by
    rw [kept.child? node .parameters (by decide)]
    cases found : node.child? .parameters with
    | none =>
        rfl
    | some list =>
        rw [Option.map_some, Option.toList_some, Option.toList_some, List.flatMap_singleton,
          List.flatMap_singleton,
          kept.declaredParameters list (kept.children_of_child? (by simp) found)]
  unfold Region.methodDeclaration?
  simp only [kept.name?, kept.comments, sameParameters]

theorem callDeclarations
    (region : Region) :
    region.callDeclarations (change node) = region.callDeclarations node := by
  have sameReferences (kind : ReferenceKind) :
      region.referenceDeclarations kind (change node).arguments =
        region.referenceDeclarations kind node.arguments := by
    rw [kept.arguments, Region.referenceDeclarations, List.filter_map, List.map_map]
    simp only [Function.comp_def, kept.isConstantPath, kept.text]
    rfl
  have sameAttributes (call : String) (comments : Option String) :
      (change node).arguments.flatMap (region.attributeDeclarations call comments) =
        node.arguments.flatMap (region.attributeDeclarations call comments) := by
    rw [kept.arguments, List.flatMap_map]
    refine List.flatMap_congr fun argument _ => ?_
    simp only [Region.attributeDeclarations, kept.isMethodNameLiteral, kept.text]
  unfold Region.callDeclarations
  rw [sameReferences, sameReferences, sameReferences, kept.name?, kept.comments, sameAttributes]

/-- What a node declares itself is kept. -/
theorem declarations
    (sameRegion : other.unplaced = region.unplaced) :
    other.declarations (change node) = region.declarations node := by
  have sameBody : (other.bodyOf? (change node)).isSome = (region.bodyOf? node).isSome := by
    rw [← Option.isSome_map, kept.bodyOf? node sameRegion, Option.isSome_map]
  obtain ⟨hardScope, presence, rfl⟩ := Region.exists_eq_of_unplaced sameRegion
  unfold Region.declarations
  rw [kept.kind]
  split
  case h_1 | h_2 =>
    simp only [Region.namespaceDeclaration?, kept.definedPath?, kept.kind, kept.comments,
      kept.superclassName?]
    rfl
  case h_3 =>
    rw [kept.methodDeclaration?]
    rfl
  case h_4 =>
    rw [sameBody, kept.methodDeclaration?]
    rfl
  case h_5 | h_6 =>
    rw [kept.child? node .left (by decide)]
    cases node.child? .left with
    | none =>
        rw [Option.map_none, Option.toList_none, List.flatMap_nil, List.flatMap_nil]
    | some target =>
        simp only [Option.map_some, Option.toList_some, List.flatMap_singleton,
          Region.targetDeclarations, kept.kind, kept.text, kept.comments]
  case h_7 =>
    rw [kept.visibilityCall?, kept.child? node .receiver (by decide), Option.isNone_map,
      kept.callDeclarations]
    rfl
  case h_8 =>
    rfl

end SyntaxNode.Keeps

namespace SyntaxNode

mutual

/-- A tree without the spans of its nodes. -/
def unplaced : SyntaxNode → SyntaxNode
  | ⟨kind, field, text?, comments, _, children⟩ =>
      ⟨kind, field, text?, comments, default, unplacedAll children⟩

/-- Several trees without the spans of their nodes. -/
def unplacedAll : List SyntaxNode → List SyntaxNode
  | [] => []
  | node :: rest => unplaced node :: unplacedAll rest

end

theorem unplacedAll_eq_map
    (nodes : List SyntaxNode) :
    unplacedAll nodes = nodes.map unplaced := by
  induction nodes with
  | nil =>
      rfl
  | cons node rest inductionHypothesis =>
      rw [unplacedAll, inductionHypothesis, List.map_cons]

theorem children_unplaced
    (node : SyntaxNode) :
    node.unplaced.children = node.children.map unplaced := by
  cases node
  exact unplacedAll_eq_map _

/-- Taking the spans away keeps all nodes. -/
theorem keeps_unplaced : Keeps unplaced where
  kind node := by
    cases node
    rfl
  field node := by
    cases node
    rfl
  text? node := by
    cases node
    rfl
  comments node := by
    cases node
    rfl
  child? node role _ := by
    have sameField (child : SyntaxNode) : child.unplaced.field = child.field := by
      cases child
      rfl
    simp only [child?, children_unplaced, List.find?_map, Function.comp_def, sameField]
  children node _ := children_unplaced node

end SyntaxNode

namespace Region

/-- Lists are built alike from items that correspond to each other. -/
theorem flatMap_congr_of_forall₂
    {corresponds : α → β → Prop}
    {items : List α}
    {others : List β}
    {build : α → List γ}
    {buildOther : β → List γ}
    (correspond : List.Forall₂ corresponds items others)
    (alike : ∀ item, ∀ other ∈ others, corresponds item other → build item = buildOther other) :
    items.flatMap build = others.flatMap buildOther := by
  induction correspond with
  | nil =>
      rfl
  | cons first _ inductionHypothesis =>
      rw [List.flatMap_cons, List.flatMap_cons, alike _ _ List.mem_cons_self first,
        inductionHypothesis fun item other member =>
          alike item other (List.mem_cons_of_mem _ member)]

/-- What is declared at a node and below it does not depend on places. -/
theorem declared_unplaced
    {region other : Region}
    {node : SyntaxNode}
    (sameRegion : other.unplaced = region.unplaced) :
    other.declared node.unplaced = region.declared node := by
  induction region, node using walkInduction generalizing other with
  | step region node inductionHypothesis =>
      have follows := SyntaxNode.keeps_unplaced.walked node sameRegion node.children_unplaced
      rw [declared_eq, declared_eq, SyntaxNode.keeps_unplaced.declarations node sameRegion]
      refine congrArg _ (flatMap_congr_of_forall₂ follows fun moved part member same => ?_)
      rw [same.2]
      exact inductionHypothesis part member same.1

/-- The same tree at another place declares the same. -/
theorem declared_congr
    {region other : Region}
    {node moved : SyntaxNode}
    (sameRegion : other.unplaced = region.unplaced)
    (sameTree : moved.unplaced = node.unplaced) :
    other.declared moved = region.declared node := by
  rw [← declared_unplaced (rfl : other.unplaced = other.unplaced), sameTree,
    declared_unplaced sameRegion]

end Region

end TagCheck
