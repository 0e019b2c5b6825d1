import TagCheck.Proofs.Outline.Places

namespace TagCheck

/-!
# Definitions in a block `class << self`

In the body of a class or a module, a definition `def self.m` may also be written as `def m` inside a
block `class << self`, and a call `extend M` as `include M`.  A survey lists the same declarations for
both ways of writing a definition, but in another order.  It does not list the same for a call.
-/

namespace SyntaxNode

/-- A definition `def self.m`. -/
def isSelfMethod (node : SyntaxNode) : Bool :=
  node.kind = .singletonMethod && (node.child? .object).any (·.kind = .selfReference)

theorem kind_of_isSelfMethod
    {node : SyntaxNode}
    (isSelfMethod : node.isSelfMethod = true) :
    node.kind = .singletonMethod := by
  simp only [SyntaxNode.isSelfMethod, Bool.and_eq_true, decide_eq_true_eq] at isSelfMethod
  exact isSelfMethod.1

/-- A call `extend M`. -/
def isExtension (node : SyntaxNode) : Bool :=
  node.kind = .call && (node.child? .receiver).isNone && node.name? = some "extend"

/-- A definition `def self.m` without `self`. -/
def withoutSelf (node : SyntaxNode) : SyntaxNode :=
  { node with kind := .method, children := node.children.filter (·.field ≠ some .object) }

/-- A call `extend M` with another method's name. -/
def asInclusion (node : SyntaxNode) : SyntaxNode :=
  { node with
    children := node.children.map fun child =>
      if child.field = some .method then { child with text? := some "include" } else child }

/-- A definition or a call as it is written inside a block. -/
def inSelfBlock (node : SyntaxNode) : SyntaxNode :=
  if node.isSelfMethod then node.withoutSelf else node.asInclusion

/-- A block `class << self`. -/
def selfBlock (statements : List SyntaxNode) : SyntaxNode :=
  ⟨.singletonClass, none, none, none, default,
    ⟨.selfReference, some .value, some "self", none, default, []⟩ :: statements⟩

end SyntaxNode

/-- A choice of definitions and calls that are moved into blocks, at most one block for a body. -/
structure Regrouping where
  /-- The place of the block among the children that stay; none if a body gets no block. -/
  place? : SyntaxNode → Option Nat
  isChosen : SyntaxNode → Bool

namespace Regrouping

/-- The place of the block in the body of a class or a module. -/
def blockPlace? (regrouping : Regrouping) (body : SyntaxNode) : Option Nat :=
  if body.isNamespaceBody then regrouping.place? body else none

/-- A statement is chosen, and can be moved. -/
def moves (regrouping : Regrouping) (node : SyntaxNode) : Bool :=
  regrouping.isChosen node && node.isStatement && (node.isSelfMethod || node.isExtension)

end Regrouping

namespace SyntaxNode

mutual

/-- A tree whose chosen definitions and calls are moved into blocks. -/
def regroup (regrouping : Regrouping) : SyntaxNode → SyntaxNode
  | ⟨kind, field, text?, comments, span, children⟩ =>
      match regrouping.blockPlace? ⟨kind, field, text?, comments, span, children⟩ with
      | some place =>
          let stay := regroupWhere regrouping (!regrouping.moves ·) children
          let moved := (children.filter regrouping.moves).map inSelfBlock
          ⟨kind, field, text?, comments, span,
            stay.take place ++ selfBlock moved :: stay.drop place⟩
      | none =>
          ⟨kind, field, text?, comments, span, regroupWhere regrouping (fun _ => true) children⟩

/-- Those of several trees that have a property, with their definitions and calls moved. -/
def regroupWhere (regrouping : Regrouping) (property : SyntaxNode → Bool) :
    List SyntaxNode → List SyntaxNode
  | [] => []
  | node :: rest =>
      if property node then
        regroup regrouping node :: regroupWhere regrouping property rest
      else
        regroupWhere regrouping property rest

end

section Regroup

variable {regrouping : Regrouping} {node : SyntaxNode}

theorem regroupWhere_eq
    (property : SyntaxNode → Bool)
    (nodes : List SyntaxNode) :
    regroupWhere regrouping property nodes = (nodes.filter property).map (regroup regrouping) := by
  induction nodes with
  | nil =>
      rfl
  | cons node rest inductionHypothesis =>
      rw [regroupWhere, List.filter_cons, inductionHypothesis]
      split
      · rw [List.map_cons]
      · rfl

/-- Regrouping changes nothing but children. -/
theorem regroup_eq
    (regrouping : Regrouping)
    (node : SyntaxNode) :
    node.regroup regrouping = { node with children := (node.regroup regrouping).children } := by
  cases node
  unfold regroup
  split <;> rfl

theorem children_regroup_of_none
    (hasNoBlock : regrouping.blockPlace? node = none) :
    (node.regroup regrouping).children = node.children.map (regroup regrouping) := by
  cases node
  unfold regroup
  rw [hasNoBlock]
  dsimp only
  rw [regroupWhere_eq, List.filter_eq_self.mpr fun _ _ => rfl]

/-- A body with a block consists of the block and of what stays before and behind it. -/
theorem children_regroup_of_some
    {place : Nat}
    (hasBlock : regrouping.blockPlace? node = some place) :
    ∃ before behind,
      before ++ behind = node.children.filter (!regrouping.moves ·) ∧
        (node.regroup regrouping).children =
          before.map (regroup regrouping) ++
            selfBlock ((node.children.filter regrouping.moves).map inSelfBlock) ::
              behind.map (regroup regrouping) := by
  refine ⟨(node.children.filter (!regrouping.moves ·)).take place,
    (node.children.filter (!regrouping.moves ·)).drop place, List.take_append_drop _ _, ?_⟩
  cases node
  unfold regroup
  rw [hasBlock]
  dsimp only
  rw [regroupWhere_eq, List.map_take, List.map_drop]

/-- What has a role other than that of a body stays where it is. -/
theorem child?_regroup
    {role : NodeField}
    (notBody : role ≠ .body) :
    (node.regroup regrouping).child? role = (node.child? role).map (regroup regrouping) := by
  have sameRole (child : SyntaxNode) : (child.regroup regrouping).field = child.field := by
    rw [regroup_eq]
  cases place : regrouping.blockPlace? node with
  | none =>
      rw [child?, children_regroup_of_none place, List.find?_map]
      simp only [Function.comp_def, sameRole, child?]
  | some place =>
      obtain ⟨before, behind, stay, regrouped⟩ := children_regroup_of_some place
      have behindBlock (statements rest : List SyntaxNode) :
          (selfBlock statements :: rest).find? (·.field = some role) =
            rest.find? (·.field = some role) :=
        List.find?_cons_of_neg (by simp [selfBlock])
      have staysInRole (child : SyntaxNode) :
          ((!regrouping.moves child) = true ∧ decide (child.field = some role) = true) ↔
            child.field = some role := by
        by_cases inRole : child.field = some role
        · have notStatement : child.isStatement = false := by
            simpa [isStatement, inRole] using notBody
          simp [Regrouping.moves, notStatement]
        · simp [inRole]
      rw [child?, regrouped, List.find?_append, behindBlock, ← List.find?_append,
        ← List.map_append, stay, List.find?_map, List.find?_filter]
      simp only [Function.comp_def, sameRole, child?, staysInRole]

theorem keeps_regroup
    (regrouping : Regrouping) :
    Keeps (regroup regrouping) where
  kind node := by rw [regroup_eq]
  field node := by rw [regroup_eq]
  text? node := by rw [regroup_eq]
  comments node := by rw [regroup_eq]
  child? _ _ notBody := child?_regroup notBody
  children node notNamespace := by
    refine children_regroup_of_none ?_
    rw [Regrouping.blockPlace?, notNamespace]
    rfl

end Regroup

section WithoutSelf

variable {node : SyntaxNode}

theorem child?_withoutSelf
    {role : NodeField}
    (notObject : role ≠ .object) :
    node.withoutSelf.child? role = node.child? role := by
  simp only [child?, withoutSelf, List.find?_filter]
  congr 1
  funext child
  by_cases inRole : child.field = some role
  · simp [inRole, notObject]
  · simp [inRole]

theorem name?_withoutSelf :
    node.withoutSelf.name? = node.name? := by
  have sameName : node.withoutSelf.child? .name = node.child? .name :=
    child?_withoutSelf (by decide)
  have sameMethod : node.withoutSelf.child? .method = node.child? .method :=
    child?_withoutSelf (by decide)
  rw [name?, nameNode?, sameName, sameMethod, name?, nameNode?]

theorem statements_withoutSelf :
    node.withoutSelf.statements = node.statements := by
  simp only [statements, withoutSelf, List.filter_filter]
  refine List.filter_congr fun child _ => ?_
  by_cases isObject : child.field = some .object
  · simp [isStatement, isObject]
  · simp [isObject]

end WithoutSelf

end SyntaxNode

namespace Region

variable {region : Region} {node : SyntaxNode}

/-- The body of a method is the same inside a block and outside of it. -/
theorem methodBody?_withoutSelf
    (span : Span) :
    (region.ofSingletonClass span).methodBody? node.withoutSelf .classLevel =
      region.methodBody? node .classLevel := by
  simp only [methodBody?, SyntaxNode.name?_withoutSelf]
  rfl

theorem methodDeclaration?_withoutSelf
    (span : Span) :
    (region.ofSingletonClass span).methodDeclaration? node.withoutSelf .classLevel =
      region.methodDeclaration? node .classLevel := by
  have sameParameters : node.withoutSelf.child? .parameters = node.child? .parameters :=
    SyntaxNode.child?_withoutSelf (by decide)
  simp only [methodDeclaration?, SyntaxNode.name?_withoutSelf, sameParameters]
  rfl

/-- A definition `def self.m` has the body of a class method. -/
theorem bodyOf?_of_isSelfMethod
    (isSelfMethod : node.isSelfMethod = true) :
    region.bodyOf? node = region.methodBody? node .classLevel := by
  simp only [SyntaxNode.isSelfMethod, Bool.and_eq_true, decide_eq_true_eq] at isSelfMethod
  obtain ⟨isSingleton, ofSelf⟩ := isSelfMethod
  unfold bodyOf?
  rw [isSingleton]
  dsimp only
  cases found : node.child? .object with
  | none =>
      rw [found] at ofSelf
      cases ofSelf
  | some object =>
      rw [found, Option.any_some, decide_eq_true_eq] at ofSelf
      rw [Option.bind_some, if_pos ofSelf]

/-- A definition declares the same as `def m` inside a block and as `def self.m` outside of it. -/
theorem declared_withoutSelf
    (isSelfMethod : node.isSelfMethod = true)
    (span : Span) :
    (region.ofSingletonClass span).declared node.withoutSelf = region.declared node := by
  have isSingleton := SyntaxNode.kind_of_isSelfMethod isSelfMethod
  have sameBody : (region.ofSingletonClass span).bodyOf? node.withoutSelf = region.bodyOf? node := by
    rw [bodyOf?_of_isSelfMethod isSelfMethod, ← methodBody?_withoutSelf span]
    rfl
  have sameDeclarations :
      (region.ofSingletonClass span).declarations node.withoutSelf = region.declarations node := by
    have inBlock : (region.ofSingletonClass span).declarations node.withoutSelf =
        (region.methodDeclaration? node .classLevel).toList := by
      rw [← methodDeclaration?_withoutSelf span]
      rfl
    rw [inBlock, declarations, isSingleton]
    dsimp only
    rw [bodyOf?_of_isSelfMethod isSelfMethod, methodBody?, methodDeclaration?]
    cases node.name? <;> rfl
  have sameWalked : (region.ofSingletonClass span).walked node.withoutSelf = region.walked node := by
    rw [walked_of_isDefinition (by simp [SyntaxNode.withoutSelf]),
      walked_of_isDefinition (by simp [isSingleton]), sameBody, SyntaxNode.statements_withoutSelf]
  rw [declared_eq, declared_eq, sameDeclarations, sameWalked]

/-- A block declares what its statements declare. -/
theorem declared_selfBlock
    (statements : List SyntaxNode) :
    region.declared (.selfBlock statements) =
      (statements.filter SyntaxNode.isStatement).flatMap
        (region.ofSingletonClass default).declared := by
  have walksStatements : region.walked (.selfBlock statements) =
      (statements.filter SyntaxNode.isStatement).map (region.ofSingletonClass default, ·) :=
    rfl
  rw [declared_eq, walksStatements, List.flatMap_map]
  rfl

/-- The body of a class or a module is walked in its own region. -/
theorem walked_of_isNamespaceBody
    (isNamespaceBody : node.isNamespaceBody = true) :
    region.walked node =
      (region.bodyOf? node).toList.flatMap fun inner => node.statements.map (inner, ·) := by
  simp only [SyntaxNode.isNamespaceBody, Bool.and_eq_true, Bool.or_eq_true,
    decide_eq_true_eq] at isNamespaceBody
  refine walked_of_isDefinition ?_
  rcases isNamespaceBody.1 with isClass | isModule
  · simp [isClass]
  · simp [isModule]

end Region

namespace Declaration

/-- The declaration of a namespace or a mixin call, which counts before or behind others. -/
def isStructural (declaration : Declaration) : Bool :=
  match declaration.kind with
  | .namespaceOf .. | .reference .. => true
  | _ => false

/-- The same declarations in another order, which is the old one for namespaces and mixin calls. -/
structure IsRearrangementOf (others declarations : List Declaration) : Prop where
  perm : others.Perm declarations
  structural_eq : others.filter isStructural = declarations.filter isStructural

namespace IsRearrangementOf

theorem refl
    (declarations : List Declaration) :
    IsRearrangementOf declarations declarations :=
  ⟨.refl _, rfl⟩

theorem trans
    {first second third : List Declaration}
    (left : IsRearrangementOf first second)
    (right : IsRearrangementOf second third) :
    IsRearrangementOf first third :=
  ⟨left.perm.trans right.perm, left.structural_eq.trans right.structural_eq⟩

theorem append
    {others declarations moreOthers more : List Declaration}
    (left : IsRearrangementOf others declarations)
    (right : IsRearrangementOf moreOthers more) :
    IsRearrangementOf (others ++ moreOthers) (declarations ++ more) where
  perm := left.perm.append right.perm
  structural_eq := by
    rw [List.filter_append, List.filter_append, left.structural_eq, right.structural_eq]

/-- What is rearranged item by item is rearranged as a whole. -/
theorem flatMap
    {corresponds : α → β → Prop}
    {others : List α}
    {items : List β}
    {buildOther : α → List Declaration}
    {build : β → List Declaration}
    (correspond : List.Forall₂ corresponds others items)
    (each : ∀ other, ∀ item ∈ items, corresponds other item →
      IsRearrangementOf (buildOther other) (build item)) :
    IsRearrangementOf (others.flatMap buildOther) (items.flatMap build) := by
  induction correspond with
  | nil =>
      exact refl []
  | cons first _ inductionHypothesis =>
      rw [List.flatMap_cons, List.flatMap_cons]
      exact (each _ _ List.mem_cons_self first).append
        (inductionHypothesis fun other item member =>
          each other item (List.mem_cons_of_mem _ member))

/-- Items that declare no structure do not count for the structure. -/
theorem filter_flatMap_of_plain
    {items : List α}
    {isPlain : α → Bool}
    {build : α → List Declaration}
    (plain : ∀ item ∈ items, isPlain item = true → (build item).filter isStructural = []) :
    ((items.filter (!isPlain ·)).flatMap build).filter isStructural =
      (items.flatMap build).filter isStructural := by
  induction items with
  | nil =>
      rfl
  | cons item rest inductionHypothesis =>
      have restEq := inductionHypothesis fun other member =>
        plain other (List.mem_cons_of_mem _ member)
      rw [List.flatMap_cons, List.filter_append, ← restEq, List.filter_cons]
      split
      · rw [List.flatMap_cons, List.filter_append]
      · next isPlainItem =>
          rw [plain item List.mem_cons_self (by simpa using isPlainItem), List.nil_append]

/-- Items that declare no structure can be moved to any place among the others. -/
theorem of_moved
    {items before behind : List α}
    {isMoved : α → Bool}
    {build : α → List Declaration}
    (stay : before ++ behind = items.filter (!isMoved ·))
    (plain : ∀ item ∈ items, isMoved item = true → (build item).filter isStructural = []) :
    IsRearrangementOf
      (before.flatMap build ++ ((items.filter isMoved).flatMap build ++ behind.flatMap build))
      (items.flatMap build) where
  perm := by
    rw [← List.flatMap_append, ← List.flatMap_append]
    refine List.Perm.flatMap_right build ?_
    have inFront : (before ++ (items.filter isMoved ++ behind)).Perm
        (items.filter isMoved ++ (before ++ behind)) := by
      rw [← List.append_assoc, ← List.append_assoc]
      exact List.perm_append_comm.append_right behind
    rw [stay] at inFront
    exact inFront.trans (List.filter_append_perm isMoved items)
  structural_eq := by
    have movedPlain : ((items.filter isMoved).flatMap build).filter isStructural = [] := by
      rw [List.filter_flatMap, List.flatMap_eq_nil_iff]
      intro item member
      obtain ⟨isItem, moved⟩ := List.mem_filter.mp member
      exact plain item isItem moved
    rw [List.filter_append, List.filter_append, movedPlain, List.nil_append, ← List.filter_append,
      ← List.flatMap_append, stay, filter_flatMap_of_plain plain]

end IsRearrangementOf

end Declaration

/-- Only definitions `def self.m` are moved, and in these no namespace and no mixin is declared. -/
structure Regrouping.MovesPlainMethods (regrouping : Regrouping) : Prop where
  isSelfMethod (node : SyntaxNode) : regrouping.isChosen node = true → node.isSelfMethod = true
  isPlain (node : SyntaxNode) :
    regrouping.isChosen node = true → ∀ region : Region, ∀ declaration ∈ region.declared node,
      declaration.isStructural = false

namespace SyntaxNode

variable {regrouping : Regrouping} (movesPlain : regrouping.MovesPlainMethods)
include movesPlain

/-- The block of a body declares what its statements declared in the body. -/
theorem declared_movedBlock
    (region : Region)
    (node : SyntaxNode) :
    region.declared (selfBlock ((node.children.filter regrouping.moves).map inSelfBlock)) =
      (node.statements.filter regrouping.moves).flatMap region.declared := by
  have moved_eq : (node.children.filter regrouping.moves).filter isStatement =
      node.statements.filter regrouping.moves := by
    rw [statements, List.filter_filter, List.filter_filter]
    exact List.filter_congr fun child _ => Bool.and_comm _ _
  have sameRole (child : SyntaxNode) : child.inSelfBlock.isStatement = child.isStatement := by
    unfold inSelfBlock
    split <;> rfl
  rw [Region.declared_selfBlock, List.filter_map, List.flatMap_map]
  simp only [Function.comp_def, sameRole]
  rw [moved_eq]
  refine List.flatMap_congr fun definition member => ?_
  have isChosen : regrouping.isChosen definition = true := by
    have moves := (List.mem_filter.mp member).2
    simp only [Regrouping.moves, Bool.and_eq_true] at moves
    exact moves.1.1
  have isSelfMethod := movesPlain.isSelfMethod definition isChosen
  rw [inSelfBlock, if_pos isSelfMethod, Region.declared_withoutSelf isSelfMethod]

/-- The statements of a body with a block declare what they declared without the block. -/
theorem isRearrangementOf_statements_regroup
    {node : SyntaxNode}
    {place : Nat}
    (hasBlock : regrouping.blockPlace? node = some place)
    {region other : Region}
    (sameRegion : other.unplaced = region.unplaced)
    (each : ∀ statement ∈ node.statements, Declaration.IsRearrangementOf
      (other.declared (statement.regroup regrouping)) (region.declared statement)) :
    Declaration.IsRearrangementOf ((node.regroup regrouping).statements.flatMap other.declared)
      (node.statements.flatMap region.declared) := by
  obtain ⟨before, behind, stay, regrouped⟩ := children_regroup_of_some hasBlock
  have kept := keeps_regroup regrouping
  have regroupedStatements : (node.regroup regrouping).statements =
      (before.filter isStatement).map (regroup regrouping) ++
        selfBlock ((node.children.filter regrouping.moves).map inSelfBlock) ::
          (behind.filter isStatement).map (regroup regrouping) := by
    have isBlockStatement (inside : List SyntaxNode) : (selfBlock inside).isStatement = true := rfl
    simp only [statements, regrouped, List.filter_append, List.filter_cons, isBlockStatement,
      if_true, List.filter_map, Function.comp_def, kept.isStatement]
  have stayingStatements : before.filter isStatement ++ behind.filter isStatement =
      node.statements.filter (!regrouping.moves ·) := by
    rw [← List.filter_append, stay, statements, List.filter_filter, List.filter_filter]
    exact List.filter_congr fun child _ => Bool.and_comm _ _
  have eachOf (part : List SyntaxNode) (isPart : part.Sublist node.statements) :
      Declaration.IsRearrangementOf
        ((part.map (regroup regrouping)).flatMap other.declared) (part.flatMap region.declared) := by
    rw [List.flatMap_map]
    refine .flatMap (List.forall₂_same.mpr fun _ _ => rfl) ?_
    rintro statement _ member rfl
    exact each statement (isPart.subset member)
  have areStatements :
      (before.filter isStatement ++ behind.filter isStatement).Sublist node.statements :=
    stayingStatements ▸ List.filter_sublist
  have sameBlock :
      other.declared (selfBlock ((node.children.filter regrouping.moves).map inSelfBlock)) =
        (node.statements.filter regrouping.moves).flatMap region.declared := by
    rw [declared_movedBlock movesPlain]
    exact List.flatMap_congr fun definition _ => Region.declared_congr sameRegion rfl
  have inFront := eachOf _ ((List.sublist_append_left _ _).trans areStatements)
  have inBack := eachOf _ ((List.sublist_append_right _ _).trans areStatements)
  rw [regroupedStatements, List.flatMap_append, List.flatMap_cons, sameBlock]
  refine (inFront.append ((Declaration.IsRearrangementOf.refl _).append inBack)).trans ?_
  refine .of_moved stayingStatements fun definition _ moves => ?_
  have isChosen : regrouping.isChosen definition = true := by
    simp only [Regrouping.moves, Bool.and_eq_true] at moves
    exact moves.1.1
  rw [List.filter_eq_nil_iff]
  intro declaration member
  rw [movesPlain.isPlain definition isChosen region declaration member]
  exact Bool.false_ne_true

/-- A regrouped tree declares the same, and what counts before other declarations still does. -/
theorem isRearrangementOf_declared_regroup
    {region other : Region}
    {node : SyntaxNode}
    (sameRegion : other.unplaced = region.unplaced) :
    Declaration.IsRearrangementOf (other.declared (node.regroup regrouping))
      (region.declared node) := by
  induction region, node using Region.walkInduction generalizing other with
  | step region node inductionHypothesis =>
      have kept := keeps_regroup regrouping
      rw [Region.declared_eq, Region.declared_eq, kept.declarations node sameRegion]
      refine (Declaration.IsRearrangementOf.refl _).append ?_
      cases hasBlock : regrouping.blockPlace? node with
      | none =>
          refine .flatMap (kept.walked node sameRegion (children_regroup_of_none hasBlock)) ?_
          intro moved part member follows
          rw [follows.2]
          exact inductionHypothesis part member follows.1
      | some place =>
          have isBody : node.isNamespaceBody = true := by
            unfold Regrouping.blockPlace? at hasBlock
            split at hasBlock
            · assumption
            · cases hasBlock
          have isRegroupedBody : (node.regroup regrouping).isNamespaceBody = true := by
            rw [isNamespaceBody, kept.kind, kept.field]
            exact isBody
          have sameBody := kept.bodyOf? node sameRegion
          have walked_eq : region.walked node =
              (region.bodyOf? node).toList.flatMap fun inner => node.statements.map (inner, ·) :=
            Region.walked_of_isNamespaceBody isBody
          rw [Region.walked_of_isNamespaceBody isRegroupedBody, walked_eq]
          cases body : region.bodyOf? node with
          | none =>
              rw [body, Option.map_none, Option.map_eq_none_iff] at sameBody
              rw [sameBody]
              exact .refl []
          | some inner =>
              rw [body, Option.map_some, Option.map_eq_some_iff] at sameBody
              obtain ⟨otherInner, otherBody, sameInner⟩ := sameBody
              rw [otherBody]
              simp only [Option.toList_some, List.flatMap_singleton, List.flatMap_map]
              refine isRearrangementOf_statements_regroup movesPlain hasBlock sameInner ?_
              intro statement isStatement
              have isWalked : (inner, statement) ∈ region.walked node := by
                rw [walked_eq, body, Option.toList_some, List.flatMap_singleton]
                exact List.mem_map.mpr ⟨statement, isStatement, rfl⟩
              exact inductionHypothesis (inner, statement) isWalked sameInner

end SyntaxNode

namespace Region

variable {region inner : Region} {node : SyntaxNode} {declaration : Declaration}

/-- Outside of the bodies of namespaces, only definitions of namespaces are structural. -/
theorem isStructural_of_mem_declarations
    (outside : node.kind ≠ .singletonMethod → region.inNamespaceBody = false)
    (notNamespace : node.kind ≠ .classDefinition ∧ node.kind ≠ .moduleDefinition)
    (member : declaration ∈ region.declarations node) :
    declaration.isStructural = false := by
  cases canDeclare_of_mem_declarations member with
  | namespaceOf isNamespace _ =>
      exact absurd isNamespace (not_or.mpr notNamespace)
  | method declares =>
      obtain ⟨name, -, rfl⟩ := Option.map_eq_some_iff.mp declares
      rfl
  | variableOf _ _ _ isVariable =>
      rcases isVariable with rfl | rfl | rfl | rfl <;> rfl
  | reference _ _ isCall inBody =>
      rw [outside (by simp [isCall])] at inBody
      cases inBody
  | attributeMethod _ _ =>
      rfl

theorem inNamespaceBody_of_methodBody?
    {scope : Scope}
    (body : region.methodBody? node scope = some inner) :
    inner.inNamespaceBody = false := by
  obtain ⟨name, -, rfl⟩ := Option.map_eq_some_iff.mp body
  rfl

end Region

namespace SyntaxNode

/-- No namespace and no singleton class is defined at a node or below it. -/
def HasNoNamespaceBody (node : SyntaxNode) : Prop :=
  ∀ part ∈ node.preorder,
    part.kind ∉ [.classDefinition, .moduleDefinition, .singletonClass]

instance (node : SyntaxNode) : Decidable node.HasNoNamespaceBody :=
  inferInstanceAs (Decidable (∀ part ∈ node.preorder, _))

end SyntaxNode

namespace Region

variable {region : Region} {node : SyntaxNode} {declaration : Declaration}

/-- Outside of the bodies of namespaces the walk does not enter one if there is none below. -/
theorem inNamespaceBody_of_mem_walked
    {inner : Region}
    {child : SyntaxNode}
    (outside : node.kind ≠ .singletonMethod → region.inNamespaceBody = false)
    (hasNoBody : node.HasNoNamespaceBody)
    (isWalked : (inner, child) ∈ region.walked node) :
    inner.inNamespaceBody = false := by
  have notBody := hasNoBody node node.mem_preorder_self
  have inSame {nodes : List SyntaxNode} (notMethod : node.kind ≠ .singletonMethod)
      (member : (inner, child) ∈ nodes.map (region, ·)) :
      inner.inNamespaceBody = false := by
    obtain ⟨part, -, same⟩ := List.mem_map.mp member
    cases same
    exact outside notMethod
  unfold walked at isWalked
  split at isWalked
  case h_1 | h_2 | h_3 =>
    next isBody =>
      rw [isBody] at notBody
      exact absurd notBody (by decide)
  case h_4 isMethod =>
    split at isWalked
    · next body =>
        obtain ⟨statement, -, same⟩ := List.mem_map.mp isWalked
        cases same
        rw [bodyOf?, isMethod] at body
        exact inNamespaceBody_of_methodBody? body
    · cases isWalked
  case h_5 isMethod =>
    split at isWalked
    · next body =>
        obtain ⟨statement, -, same⟩ := List.mem_map.mp isWalked
        cases same
        rw [bodyOf?, isMethod] at body
        obtain ⟨object, -, ofObject⟩ := Option.bind_eq_some_iff.mp body
        split at ofObject
        · exact inNamespaceBody_of_methodBody? ofObject
        · cases ofObject
    · cases isWalked
  case h_6 | h_7 =>
    exact inSame (by simp [*]) isWalked
  case h_8 isCall =>
    split at isWalked
    · exact inSame (by simp [isCall]) isWalked
    · exact inSame (by simp [isCall]) isWalked
  case h_9 isIdentifier =>
    split at isWalked
    · cases isWalked
    · exact inSame (by simp [isIdentifier]) isWalked
  case h_10 | h_11 =>
    obtain ⟨part, -, same⟩ := List.mem_map.mp isWalked
    cases same
    rfl
  case h_12 =>
    cases isWalked
  case h_13 isLoop =>
    exact inSame (by simp [isLoop]) isWalked
  case h_14 =>
    exact inSame (by assumption) isWalked

/--
A definition `def self.m`, and everything outside of the bodies of namespaces, declares no structure
if there is no such body below.
-/
theorem isStructural_of_mem_declared
    (outside : node.kind ≠ .singletonMethod → region.inNamespaceBody = false)
    (hasNoBody : node.HasNoNamespaceBody)
    (member : declaration ∈ region.declared node) :
    declaration.isStructural = false := by
  induction region, node using walkInduction with
  | step region node inductionHypothesis =>
      rw [declared_eq] at member
      rcases List.mem_append.mp member with isOwn | isBelow
      · have notBody := hasNoBody node node.mem_preorder_self
        simp only [List.mem_cons, List.not_mem_nil, or_false, not_or] at notBody
        exact isStructural_of_mem_declarations outside ⟨notBody.1, notBody.2.1⟩ isOwn
      · obtain ⟨part, isWalked, declares⟩ := List.mem_flatMap.mp isBelow
        have partOutside := inNamespaceBody_of_mem_walked outside hasNoBody isWalked
        refine inductionHypothesis part isWalked (fun _ => partOutside) ?_ declares
        intro below isBelowPart
        exact hasNoBody below
          (SyntaxNode.mem_preorder_trans (mem_preorder_of_mem_walked isWalked) isBelowPart)

end Region

/-- All definitions `def self.m` without namespaces and singleton classes inside are moved. -/
def Regrouping.ofSelfMethods (place? : SyntaxNode → Option Nat) : Regrouping where
  place? := place?
  isChosen node := node.isSelfMethod && decide node.HasNoNamespaceBody

theorem Regrouping.movesPlainMethods_ofSelfMethods
    (place? : SyntaxNode → Option Nat) :
    (ofSelfMethods place?).MovesPlainMethods where
  isSelfMethod node isChosen := (Bool.and_eq_true_iff.mp isChosen).1
  isPlain node isChosen region declaration member := by
    obtain ⟨isSelfMethod, hasNoBody⟩ := Bool.and_eq_true_iff.mp isChosen
    refine Region.isStructural_of_mem_declared (fun notMethod => ?_) (of_decide_eq_true hasNoBody)
      member
    exact absurd (SyntaxNode.kind_of_isSelfMethod isSelfMethod) notMethod

/-- The pins of a program declare what its statements declare. -/
theorem Survey.map_ofPin_reverse_ofProgram
    (source : SourceLabel)
    (root : SyntaxNode) :
    (ofProgram source root).pins.reverse.map Declaration.ofPin =
      root.children.flatMap (Region.ofProgram root.span).declared := by
  refine ((isListed_declarations source).ofProgram root).trans ?_
  rw [SyntaxNode.surveyed, List.flatMap_assoc]
  rfl

namespace Source

/-- What a source declares, the program's own namespace first. -/
def declared (source : Source) : List Declaration :=
  .ofPin (Survey.rootPin ⟨source.filename, 0⟩ default) ::
    source.root.children.flatMap (Region.ofProgram source.root.span).declared

/-- The pins of a source declare what the source declares. -/
theorem map_ofPin_pins
    (number : Nat)
    (source : Source) :
    (Outline.ofSource number source).pins.map Declaration.ofPin = source.declared :=
  congrArg _ (Survey.map_ofPin_reverse_ofProgram ⟨source.filename, number⟩ source.root)

/-- The statements of a source are those of another one, regrouped and at any places. -/
def IsRegrouped (regrouping : Regrouping) (regrouped source : Source) : Prop :=
  List.Forall₂
    (fun moved statement : SyntaxNode => moved.unplaced = (statement.regroup regrouping).unplaced)
    regrouped.root.children source.root.children

/-- A source is another one whose methods `def self.m` may have been moved into blocks. -/
def HasMovedMethods (moved source : Source) : Prop :=
  ∃ regrouping : Regrouping, regrouping.MovesPlainMethods ∧ IsRegrouped regrouping moved source

/-- A source with moved methods declares the same, and what counts before others still does. -/
theorem HasMovedMethods.isRearrangementOf
    {moved source : Source}
    (hasMoved : HasMovedMethods moved source) :
    Declaration.IsRearrangementOf moved.declared source.declared := by
  obtain ⟨regrouping, movesPlain, isRegrouped⟩ := hasMoved
  have sameRegion : (Region.ofProgram moved.root.span).unplaced =
      (Region.ofProgram source.root.span).unplaced :=
    rfl
  refine (Declaration.IsRearrangementOf.refl [_]).append (.flatMap isRegrouped ?_)
  intro _ statement _ sameTree
  rw [Region.declared_congr rfl sameTree]
  exact SyntaxNode.isRearrangementOf_declared_regroup movesPlain sameRegion

end Source

end TagCheck
