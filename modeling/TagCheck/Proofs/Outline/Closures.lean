import TagCheck.CoreLibrary.Stub
import TagCheck.Proofs.Outline.HardScope

namespace TagCheck

/-!
# The closure at a position

A survey knows the closure of a node from the definitions that it walked through.  An outline finds
it again from spans: it is the closure of the innermost definition around the position.  The two
agree unless the definition has the span of the whole program, which then wins, or `class << self`
has changed what `self` is, which no pin shows.
-/

/-- The innermost item of items that stand each inside of the one before is the last one. -/
theorem innermost?_concat
    {span : α → Span}
    {items : List α}
    {last : α}
    (nested : (items ++ [last]).Pairwise fun outer inner =>
      (span inner).isInside (span outer) = true) :
    innermost? span (items ++ [last]) = some last := by
  induction items with
  | nil =>
      rfl
  | cons item rest inductionHypothesis =>
      obtain ⟨inside, nestedRest⟩ := List.pairwise_cons.mp nested
      rw [List.cons_append, innermost?, inductionHypothesis nestedRest]
      simp [inside last (by simp)]

/-- The innermost item is found by the spans of the items alone. -/
theorem innermost?_map
    {span : β → Span}
    {view : α → β}
    (items : List α) :
    innermost? span (items.map view) = (innermost? (span ∘ view) items).map view := by
  induction items with
  | nil =>
      rfl
  | cons item rest inductionHypothesis =>
      rw [List.map_cons, innermost?, innermost?, inductionHypothesis]
      cases innermost? (span ∘ view) rest with
      | none =>
          rfl
      | some best =>
          by_cases isInside : (span (view best)).isInside (span (view item)) <;> simp [isInside]

/-- Frames are the pins that code can be inside of, seen as frames. -/
theorem Frame.filter_filterMap_ofPin?
    (pins : List Pin)
    (position : Position) :
    (pins.filterMap Frame.ofPin?).filter (·.span.contains position) =
      (pins.filter fun pin =>
        Outline.isEnclosing pin && pin.location.span.contains position).map
          fun pin => ⟨pin.location.span, pin.innerClosure⟩ := by
  induction pins with
  | nil =>
      rfl
  | cons pin rest inductionHypothesis =>
      by_cases enclosing : Outline.isEnclosing pin
      · by_cases contains : pin.location.span.contains position <;>
          simp [Frame.ofPin?, enclosing, contains, inductionHypothesis]
      · simp [Frame.ofPin?, enclosing, inductionHypothesis]

namespace Outline

/-- The frames of a source: that of the program, and those of the definitions in it. -/
theorem filterMap_pins
    (number : Nat)
    (source : Source) :
    (ofSource number source).pins.filterMap Frame.ofPin? =
      ⟨source.root.span, .root⟩ ::
        source.root.surveyed.flatMap fun part => part.1.frames part.2 := by
  have declared := (Survey.isListed_frames ⟨source.filename, number⟩).ofProgram source.root
  exact congrArg (⟨source.root.span, .root⟩ :: ·) declared

/-- The closure at a position is that of the innermost frame around it. -/
theorem innerClosure_closureAt
    (number : Nat)
    (source : Source)
    (position : Position) :
    ((ofSource number source).closureAt position).innerClosure =
      ((innermost? Frame.span
        ((⟨source.root.span, .root⟩ ::
          source.root.surveyed.flatMap fun part => part.1.frames part.2).filter
            (·.span.contains position))).map Frame.closure).getD .root := by
  rw [← filterMap_pins number, Frame.filter_filterMap_ofPin?, innermost?_map]
  unfold closureAt
  dsimp only
  generalize (ofSource number source).pins.filter _ = around
  change _ = (((innermost? (fun pin : Pin => pin.location.span) around).map _).map
    Frame.closure).getD .root
  cases innermost? (fun pin : Pin => pin.location.span) around with
  | none =>
      rfl
  | some pin =>
      rfl

end Outline

namespace SyntaxNode

/--
A walked node, with the innermost named definition that code there is inside of, and the closure of
that definition's body.  A singleton class has no name: code in it is inside of what is around it.
-/
inductive DefinedIn (root : SyntaxNode) : SyntaxNode → Closure → Region → SyntaxNode → Prop
  | program {node : SyntaxNode} (member : node ∈ root.children) :
      DefinedIn root root .root (.ofProgram root.span) node
  | part {definition node child : SyntaxNode} {closure : Closure} {region inner : Region}
      (defined : DefinedIn root definition closure region node)
      (member : (inner, child) ∈ region.walked node)
      (unnamed : node.kind = .singletonClass ∨ region.bodyOf? node = none) :
      DefinedIn root definition closure inner child
  | body {definition node child : SyntaxNode} {closure : Closure} {region inner : Region}
      (defined : DefinedIn root definition closure region node)
      (member : (inner, child) ∈ region.walked node)
      (named : node.kind ≠ .singletonClass)
      (opened : region.bodyOf? node = some inner) :
      DefinedIn root node inner.closure inner child

theorem DefinedIn.walks
    {root definition node : SyntaxNode}
    {closure : Closure}
    {region : Region}
    (defined : root.DefinedIn definition closure region node) :
    root.Walks region node := by
  induction defined with
  | program member =>
      exact .statement member
  | part _ member _ inductionHypothesis =>
      exact inductionHypothesis.part member
  | body _ member _ _ inductionHypothesis =>
      exact inductionHypothesis.part member

end SyntaxNode

/-- The definition around a walked node is a node of the program. -/
theorem SyntaxNode.DefinedIn.definition_mem
    {root definition node : SyntaxNode}
    {closure : Closure}
    {region : Region}
    (defined : root.DefinedIn definition closure region node) :
    definition ∈ root.preorder := by
  induction defined with
  | program _ =>
      exact root.mem_preorder_self
  | part _ _ _ inductionHypothesis =>
      exact inductionHypothesis
  | body defined _ _ _ _ =>
      exact defined.walks.mem_preorder

/-- The body of a definition is walked in one region. -/
theorem Region.eq_of_bodyOf?
    {region inner body : Region}
    {node child : SyntaxNode}
    (opened : region.bodyOf? node = some body)
    (member : (inner, child) ∈ region.walked node) :
    inner = body := by
  rcases Region.of_mem_walked member with same | ⟨onlyProgram, -⟩
  · exact Option.some.inj (same.symm.trans opened)
  · have isProgram := onlyProgram (Region.of_bodyOf? opened).1
    simp [Region.bodyOf?, isProgram] at opened

/-- Every walked node is inside of the program or of a named definition. -/
theorem SyntaxNode.Walks.exists_definedIn
    {root node : SyntaxNode}
    {region : Region}
    (walks : root.Walks region node) :
    ∃ definition closure, root.DefinedIn definition closure region node := by
  induction walks with
  | statement member =>
      exact ⟨root, .root, .program member⟩
  | @part region inner node child walks member inductionHypothesis =>
      obtain ⟨definition, closure, defined⟩ := inductionHypothesis
      by_cases unnamed : node.kind = .singletonClass ∨ region.bodyOf? node = none
      · exact ⟨definition, closure, .part defined member unnamed⟩
      · obtain ⟨named, isOpened⟩ := not_or.mp unnamed
        obtain ⟨body, opened⟩ := Option.ne_none_iff_exists'.mp isOpened
        obtain rfl := Region.eq_of_bodyOf? opened member
        exact ⟨node, inner.closure, .body defined member named opened⟩

namespace Region

open SyntaxNode

/-- A frame is that of a named definition with a body. -/
theorem of_mem_frames
    {region : Region}
    {node : SyntaxNode}
    {frame : Frame}
    (member : frame ∈ region.frames node) :
    frame.span = node.span ∧ node.kind ≠ .singletonClass ∧
      ∃ inner, region.bodyOf? node = some inner := by
  unfold frames at member
  split at member
  · cases member
  · next named =>
      obtain ⟨inner, isBody, rfl⟩ := List.mem_map.mp member
      exact ⟨rfl, named, inner, Option.mem_toList.mp isBody⟩

/-- The frames around a position that the walk over a node finds. -/
def framesAt (position : Position) (region : Region) (node : SyntaxNode) : List Frame :=
  ((region.walk node).flatMap fun part => part.1.frames part.2).filter (·.span.contains position)

/-- A frame around a position is that of a named definition below the node. -/
theorem exists_of_mem_framesAt
    {position : Position}
    {region : Region}
    {node : SyntaxNode}
    {frame : Frame}
    (member : frame ∈ region.framesAt position node) :
    ∃ definition ∈ node.preorder, definition.kind.isScopeGate = true ∧
      definition.kind ≠ .singletonClass ∧ definition.kind ≠ .program ∧
        definition.span.contains position = true := by
  obtain ⟨found, contains⟩ := List.mem_filter.mp member
  obtain ⟨⟨inner, definition⟩, entered, ofDefinition⟩ := List.mem_flatMap.mp found
  obtain ⟨sameSpan, named, body, opened⟩ := of_mem_frames ofDefinition
  refine ⟨definition, mem_preorder_of_mem_walk entered, (of_bodyOf? opened).1, named, ?_,
    sameSpan ▸ contains⟩
  intro isProgram
  simp [bodyOf?, isProgram] at opened

/-- Of several parts that stand apart, only the one around a position has frames there. -/
theorem flatMap_framesAt
    {position : Position}
    {parts : List (Region × SyntaxNode)}
    {part : Region × SyntaxNode}
    (apart : parts.Pairwise fun first second =>
      first.2.IsApartFrom second.2 ∨ second.2.IsApartFrom first.2)
    (nested : ∀ part ∈ parts, part.2.IsNestedBy IsApartFrom)
    (member : part ∈ parts)
    (around : part.2.span.contains position = true) :
    (parts.flatMap fun part => part.1.framesAt position part.2) =
      part.1.framesAt position part.2 := by
  obtain ⟨before, after, rfl⟩ := List.append_of_mem member
  have noFrames : ∀ other ∈ before ++ part :: after,
      (other.2.IsApartFrom part.2 ∨ part.2.IsApartFrom other.2) →
        other.1.framesAt position other.2 = [] := by
    intro other isPart otherApart
    refine List.eq_nil_iff_forall_not_mem.mpr fun frame isFrame => ?_
    obtain ⟨definition, below, isGate, -, -, contains⟩ := exists_of_mem_framesAt isFrame
    have notAround := IsApartFrom.not_contains otherApart
      ((nested other isPart).encloses below) below isGate contains
    rw [around] at notAround
    cases notAround
  obtain ⟨-, partAndAfter, beforeAndPart⟩ := List.pairwise_append.mp apart
  have beforeEmpty : (before.flatMap fun part => part.1.framesAt position part.2) = [] :=
    List.flatMap_eq_nil_iff.mpr fun other isBefore =>
      noFrames other (List.mem_append_left _ isBefore)
        (beforeAndPart other isBefore part List.mem_cons_self)
  have afterEmpty : (after.flatMap fun part => part.1.framesAt position part.2) = [] :=
    List.flatMap_eq_nil_iff.mpr fun other isAfter =>
      noFrames other (List.mem_append_right _ (List.mem_cons_of_mem _ isAfter))
        ((List.pairwise_cons.mp partAndAfter).1 other isAfter).symm
  rw [List.flatMap_append, List.flatMap_cons, beforeEmpty, afterEmpty, List.nil_append,
    List.append_nil]

/-- Around a position of a walked part there are the node's own frame and those of the part. -/
theorem framesAt_eq
    {position : Position}
    {region inner : Region}
    {node child : SyntaxNode}
    (nested : node.IsNestedBy IsApartFrom)
    (member : (inner, child) ∈ region.walked node)
    (around : child.span.contains position = true) :
    region.framesAt position node = region.frames node ++ inner.framesAt position child := by
  have aroundNode := nested.contains_of_mem (mem_preorder_of_mem_walked member) around
  have ownFrames : (region.frames node).filter (·.span.contains position) = region.frames node :=
    List.filter_eq_self.mpr fun frame isFrame => by
      rw [(of_mem_frames isFrame).1, aroundNode]
  have sides : ∀ left right, node.child? .left = some left → node.child? .right = some right →
      left.IsApartFrom right ∨ right.IsApartFrom left := by
    intro left right isLeft isRight
    refine nested.precedes_or_precedes (mem_children_of_child? isLeft)
      (mem_children_of_child? isRight) fun same => ?_
    have sameField := field_of_child? isLeft
    rw [same, field_of_child? isRight] at sameField
    cases sameField
  have apart : (region.walked node).Pairwise fun first second =>
      first.2.IsApartFrom second.2 ∨ second.2.IsApartFrom first.2 :=
    pairwise_walked nested (fun _ _ => Or.inl) sides region
  have inParts := flatMap_framesAt apart
    (fun part isWalked => nested.of_mem (mem_preorder_of_mem_walked isWalked)) member around
  rw [framesAt, walk_eq, List.flatMap_cons, List.filter_append, ownFrames, List.flatMap_assoc,
    List.filter_flatMap]
  exact congrArg _ inParts

/-- The walked parts of a definition are statements of its body. -/
theorem mem_statements_of_mem_walked
    {region inner body : Region}
    {node child : SyntaxNode}
    (opened : region.bodyOf? node = some body)
    (member : (inner, child) ∈ region.walked node) :
    child ∈ node.statements := by
  unfold walked at member
  split at member
  case h_1 | h_2 | h_3 | h_4 | h_5 =>
    rw [opened] at member
    obtain ⟨statement, isStatement, same⟩ := List.mem_map.mp member
    cases same
    exact isStatement
  case h_14 =>
    unfold bodyOf? at opened
    split at opened
    case h_6 => cases opened
    all_goals contradiction
  all_goals
    next isKind =>
      simp [bodyOf?, isKind] at opened

/-- A named definition has a name in front of its body. -/
theorem exists_name_of_bodyOf?
    {region body : Region}
    {node : SyntaxNode}
    (named : node.kind ≠ .singletonClass)
    (opened : region.bodyOf? node = some body) :
    ∃ name ∈ node.children, name.isStatement = false := by
  have ofChild : ∀ {field : NodeField} {name : SyntaxNode}, node.child? field = some name →
      field ≠ .body → ∃ name ∈ node.children, name.isStatement = false := by
    intro field name found notBody
    refine ⟨name, mem_children_of_child? found, ?_⟩
    simpa [isStatement, field_of_child? found] using notBody
  cases isBodyOf_of_bodyOf? opened with
  | ofNamespace _ defined =>
      obtain ⟨name, found, -⟩ := Option.map_eq_some_iff.mp defined
      exact ofChild found nofun
  | ofSingletonClass isKind =>
      exact absurd isKind named
  | ofMethod _ isNamed =>
      obtain ⟨name, found, -⟩ := Option.map_eq_some_iff.mp isNamed
      unfold nameNode? at found
      cases isName : node.child? .name with
      | some _ =>
          exact ofChild isName nofun
      | none =>
          rw [isName] at found
          exact ofChild found nofun

/-- A gate in the body of a named definition stands inside of the definition. -/
theorem isInside_of_mem_walked
    {region inner body : Region}
    {node child gate : SyntaxNode}
    (nested : node.IsNestedBy IsApartFrom)
    (member : (inner, child) ∈ region.walked node)
    (named : node.kind ≠ .singletonClass)
    (opened : region.bodyOf? node = some body)
    (below : gate ∈ child.preorder)
    (isGate : gate.kind.isScopeGate = true) :
    gate.span.isInside node.span = true := by
  obtain ⟨isChild, isStatement⟩ := List.mem_filter.mp (mem_statements_of_mem_walked opened member)
  obtain ⟨name, isName, notStatement⟩ := exists_name_of_bodyOf? named opened
  have different : child ≠ name := by
    rintro rfl
    rw [isStatement] at notStatement
    cases notStatement
  by_contra notInside
  -- A gate with the span of the definition would cover the name.
  have sameSpan := Span.eq_of_not_isInside
    (nested.encloses (mem_preorder_of_mem_children isChild below))
    (Bool.eq_false_iff.mpr notInside)
  have nameStart := (nested.child isName).contains_start name.mem_preorder_self
  have covers : gate.span.contains name.span.start = true := by
    rw [sameSpan]
    exact nested.contains_of_mem (mem_preorder_of_mem_children isName name.mem_preorder_self)
      nameStart
  have notCovered := IsApartFrom.not_contains
    (nested.precedes_or_precedes isChild isName different)
    ((nested.child isChild).encloses below) below isGate covers
  rw [nameStart] at notCovered
  cases notCovered

/-- Where a body has no path, `self` is a class, unlike at the top level. -/
theorem scope_of_bodyOf?
    {region body : Region}
    {node : SyntaxNode}
    (named : node.kind ≠ .singletonClass)
    (opened : region.bodyOf? node = some body)
    (noPath : body.closure.path = "") :
    body.closure.scope = .classLevel := by
  cases isBodyOf_of_bodyOf? opened with
  | ofNamespace _ _ =>
      rfl
  | ofSingletonClass isKind =>
      exact absurd isKind named
  | @ofMethod name scope _ _ =>
      exact absurd noPath (methodPath_ne_empty _ name scope)

/-- In a singleton class `self` is the class around it. -/
theorem closure_of_singletonClass
    {region body : Region}
    {node : SyntaxNode}
    (isSingleton : node.kind = .singletonClass)
    (opened : region.bodyOf? node = some body) :
    body.closure = { region.closure with scope := .classLevel } := by
  cases isBodyOf_of_bodyOf? opened with
  | ofNamespace isKind _ | ofMethod isKind _ =>
      rw [isSingleton] at isKind
      rcases isKind with isKind | isKind <;> cases isKind
  | ofSingletonClass _ =>
      rfl

end Region

namespace SyntaxNode

/--
The frames of the named definitions around a node, outermost first: each is inside of the one before,
every gate in the node is inside of all, and the last one is that of the innermost definition.
-/
structure IsFramePath (root definition : SyntaxNode) (closure : Closure) (node : SyntaxNode)
    (outer : List Frame) : Prop where
  pairwise : outer.Pairwise fun around frame => frame.span.isInside around.span = true
  inside : ∀ frame ∈ outer, ∀ gate ∈ node.preorder, gate.kind.isScopeGate = true →
    gate.span.isInside frame.span = true
  last : outer = [] ∧ definition = root ∧ closure = .root ∨
    ∃ around, outer = around ++ [⟨definition.span, closure.orRoot⟩]

/-- The frames at a position of a node are those around the node, and those in the node. -/
theorem DefinedIn.exists_isFramePath
    {root definition node : SyntaxNode}
    {closure : Closure}
    {region : Region}
    {position : Position}
    (defined : root.DefinedIn definition closure region node)
    (nested : root.IsNestedBy IsApartFrom)
    (around : node.span.contains position = true) :
    ∃ outer, root.IsFramePath definition closure node outer ∧
      (root.surveyed.flatMap fun part => part.1.frames part.2).filter
          (·.span.contains position) =
        outer ++ region.framesAt position node := by
  induction defined with
  | @program node member =>
      refine ⟨[], ⟨List.Pairwise.nil, nofun, Or.inl ⟨rfl, rfl, rfl⟩⟩, ?_⟩
      have apart : (root.children.map (Region.ofProgram root.span, ·)).Pairwise fun first second =>
          first.2.IsApartFrom second.2 ∨ second.2.IsApartFrom first.2 := by
        rw [List.pairwise_map]
        exact (nested.pairwise root root.mem_preorder_self).imp Or.inl
      have nestedParts : ∀ part ∈ root.children.map (Region.ofProgram root.span, ·),
          part.2.IsNestedBy IsApartFrom := by
        intro part isPart
        obtain ⟨child, isChild, rfl⟩ := List.mem_map.mp isPart
        exact nested.child isChild
      have inStatement := Region.flatMap_framesAt apart nestedParts
        (List.mem_map_of_mem (f := (Region.ofProgram root.span, ·)) member) around
      rw [List.flatMap_map] at inStatement
      rw [surveyed, List.flatMap_assoc, List.filter_flatMap]
      exact inStatement
  | @part definition node child closure region inner defined member unnamed inductionHypothesis =>
      have nestedNode := nested.of_mem defined.walks.mem_preorder
      have below := Region.mem_preorder_of_mem_walked member
      obtain ⟨outer, path, frames⟩ :=
        inductionHypothesis (nestedNode.contains_of_mem below around)
      have noFrame : region.frames node = [] := by
        rcases unnamed with isSingleton | notOpened
        · simp [Region.frames, isSingleton]
        · simp [Region.frames, notOpened]
      refine ⟨outer, ⟨path.pairwise, ?_, path.last⟩, ?_⟩
      · intro frame isFrame gate inChild
        exact path.inside frame isFrame gate (mem_preorder_trans below inChild)
      · rw [frames, Region.framesAt_eq nestedNode member around, noFrame, List.nil_append]
  | @body definition node child closure region inner defined member named opened
      inductionHypothesis =>
      have nestedNode := nested.of_mem defined.walks.mem_preorder
      have below := Region.mem_preorder_of_mem_walked member
      obtain ⟨outer, path, frames⟩ :=
        inductionHypothesis (nestedNode.contains_of_mem below around)
      have ownFrame : region.frames node = [⟨node.span, inner.closure.orRoot⟩] := by
        simp [Region.frames, named, opened]
      refine ⟨outer ++ [⟨node.span, inner.closure.orRoot⟩], ⟨?_, ?_, Or.inr ⟨outer, rfl⟩⟩, ?_⟩
      · rw [List.pairwise_append]
        refine ⟨path.pairwise, List.pairwise_singleton _ _, ?_⟩
        intro frame isFrame own isOwn
        rw [List.mem_singleton.mp isOwn]
        exact path.inside frame isFrame node node.mem_preorder_self (Region.of_bodyOf? opened).1
      · intro frame isFrame gate inChild isGate
        rcases List.mem_append.mp isFrame with isOuter | isOwn
        · exact path.inside frame isOuter gate (mem_preorder_trans below inChild) isGate
        · rw [List.mem_singleton.mp isOwn]
          exact Region.isInside_of_mem_walked nestedNode member named opened inChild isGate
      · rw [frames, Region.framesAt_eq nestedNode member around, ownFrame, List.append_assoc]

/-- A definition is not the program, and code in it is not at the top level. -/
structure IsApartFromTop (root definition : SyntaxNode) (closure : Closure) : Prop where
  ne_root : definition ≠ root
  scope : closure.path = "" → closure.scope = .classLevel

/-- A definition's closure is that of its code, but in a singleton class `self` is the class. -/
theorem DefinedIn.closure_eq_or
    {root definition node : SyntaxNode}
    {closure : Closure}
    {region : Region}
    (defined : root.DefinedIn definition closure region node) :
    (definition = root ∧ closure = .root ∨ root.IsApartFromTop definition closure) ∧
      (region.closure = closure ∨ region.closure = { closure with scope := .classLevel }) := by
  induction defined with
  | program member =>
      exact ⟨Or.inl ⟨rfl, rfl⟩, Or.inl rfl⟩
  | @part definition node child closure region inner defined member unnamed inductionHypothesis =>
      refine ⟨inductionHypothesis.1, ?_⟩
      rcases Region.of_mem_walked member with opened | ⟨-, rfl | ⟨-, rfl⟩⟩
      · rcases unnamed with isSingleton | notOpened
        · rw [Region.closure_of_singletonClass isSingleton opened]
          rcases inductionHypothesis.2 with same | same <;> exact Or.inr (by rw [same])
        · rw [notOpened] at opened
          cases opened
      · exact inductionHypothesis.2
      · exact inductionHypothesis.2
  | @body definition node child closure region inner defined member named opened _ =>
      obtain ⟨statement, isStatement, below⟩ := defined.walks.exists_child
      exact ⟨Or.inr ⟨ne_of_mem_preorder_child isStatement below,
        Region.scope_of_bodyOf? named opened⟩, Or.inl rfl⟩

end SyntaxNode

namespace Outline

open SyntaxNode

/-- A node that begins with no definition has no frames at its start. -/
theorem framesAt_eq_nil
    {region : Region}
    {node : SyntaxNode}
    (nested : node.IsNestedBy IsApartFrom)
    (begun : ∀ part ∈ node.preorder, part.kind.isScopeGate = true → part.kind ≠ .singletonClass →
      part.span.start ≠ node.span.start) :
    region.framesAt node.span.start node = [] := by
  refine List.eq_nil_iff_forall_not_mem.mpr fun frame isFrame => ?_
  obtain ⟨part, below, isGate, named, -, contains⟩ := Region.exists_of_mem_framesAt isFrame
  have around := Span.encloses_iff.mp (nested.encloses below)
  have atStart := Span.contains_iff.mp contains
  exact begun part below isGate named (le_antisymm atStart.1 around.1)

/--
The closure at a walked node that begins with no definition: that of the innermost named definition,
unless this definition has the span of the whole program, which then wins.
-/
theorem innerClosure_closureAt_eq
    {source : Source}
    {definition node : SyntaxNode}
    {closure : Closure}
    {region : Region}
    (number : Nat)
    (nested : source.root.IsNestedBy IsApartFrom)
    (defined : source.root.DefinedIn definition closure region node)
    (begun : ∀ part ∈ node.preorder, part.kind.isScopeGate = true → part.kind ≠ .singletonClass →
      part.span.start ≠ node.span.start) :
    ((ofSource number source).closureAt node.span.start).innerClosure =
      if definition.span = source.root.span then .root else closure.orRoot := by
  have member := defined.walks.mem_preorder
  have start := nested.contains_start member
  obtain ⟨outer, path, frames⟩ := defined.exists_isFramePath nested start
  rw [innerClosure_closureAt, List.filter_cons, if_pos (nested.contains_of_mem member start), frames,
    framesAt_eq_nil (nested.of_mem member) begun, List.append_nil]
  rcases path.last with ⟨rfl, rfl, rfl⟩ | ⟨around, rfl⟩
  · simp [innermost?]
  · rw [innermost?, innermost?_concat path.pairwise]
    by_cases sameSpan : definition.span = source.root.span
    · simp [sameSpan, Span.isInside]
    · have inside : definition.span.isInside source.root.span = true := by
        by_contra notInside
        exact sameSpan (Span.eq_of_not_isInside (nested.encloses defined.definition_mem)
          (Bool.eq_false_iff.mpr notInside))
      simp [sameSpan, inside]

/--
The closure that an outline finds at a node is the one in which the survey walked it, exactly if no
singleton class has changed what `self` is, and the innermost definition is the program or has a
path and a span of its own.
-/
theorem innerClosure_closureAt_iff
    {source : Source}
    {region : Region}
    {node : SyntaxNode}
    (number : Nat)
    (nested : source.root.IsNestedBy IsApartFrom)
    (walks : source.root.Walks region node)
    (begun : ∀ part ∈ node.preorder, part.kind.isScopeGate = true → part.kind ≠ .singletonClass →
      part.span.start ≠ node.span.start) :
    (∃ definition closure, source.root.DefinedIn definition closure region node) ∧
      ∀ definition closure, source.root.DefinedIn definition closure region node →
        (((ofSource number source).closureAt node.span.start).innerClosure = region.closure ↔
          region.closure = closure ∧
            (definition = source.root ∨
              definition.span ≠ source.root.span ∧ closure.path ≠ "")) := by
  refine ⟨walks.exists_definedIn, ?_⟩
  intro definition closure defined
  rw [innerClosure_closureAt_eq number nested defined begun]
  obtain ⟨⟨rfl, rfl⟩ | apart, sameOrClass⟩ := defined.closure_eq_or
  · rw [if_pos rfl]
    exact ⟨fun same => ⟨same.symm, Or.inl rfl⟩, fun ⟨same, _⟩ => same.symm⟩
  · -- Below the top level, no code has the closure of the top level.
    have notTop : .root ≠ region.closure := by
      intro isTop
      rcases sameOrClass with same | same
      · have noPath : closure.path = "" := by
          rw [← same, ← isTop]
          rfl
        have isClass := apart.scope noPath
        rw [← same, ← isTop] at isClass
        cases isClass
      · have isClass := congrArg Closure.scope (isTop.trans same)
        cases isClass
    by_cases sameSpan : definition.span = source.root.span
    · rw [if_pos sameSpan]
      exact ⟨fun isTop => absurd isTop notTop,
        fun ⟨_, own⟩ => own.elim (absurd · apart.ne_root) fun ⟨ownSpan, _⟩ => absurd sameSpan ownSpan⟩
    · rw [if_neg sameSpan, Closure.orRoot]
      by_cases noPath : closure.path = ""
      · rw [if_pos noPath]
        exact ⟨fun isTop => absurd isTop notTop,
          fun ⟨_, own⟩ => own.elim (absurd · apart.ne_root) fun ⟨_, path⟩ => absurd noPath path⟩
      · rw [if_neg noPath]
        exact ⟨fun same => ⟨same.symm, Or.inr ⟨sameSpan, noPath⟩⟩, fun ⟨same, _⟩ => same.symm⟩

end Outline

namespace SingleClass

open Stub.Layout

/-- A word in the body of the class. -/
def word : SyntaxNode :=
  leaf .identifier none ⟨1, 2⟩ "bar"

/-- The class `Foo`. -/
def definition : SyntaxNode :=
  branch .classDefinition none ⟨0, 0⟩ ⟨2, 3⟩ [leaf .constant (some .name) ⟨0, 6⟩ "Foo", word]

/-- A source of the class alone, which ends with the class or behind it. -/
def source (stop : Position) : Source where
  filename := "foo.rb"
  root := branch .program none ⟨0, 0⟩ stop [definition]
  isParsed := true

/-- The body of the class. -/
def body (stop : Position) : Region :=
  (Region.ofProgram (source stop).root.span).ofNamespace "Foo" definition.span

theorem walks_word (stop : Position) : (source stop).root.Walks (body stop) word :=
  .part (.statement List.mem_cons_self) (List.mem_singleton.mpr rfl)

theorem definedIn_word (stop : Position) :
    (source stop).root.DefinedIn definition (body stop).closure (body stop) word :=
  .body (.program List.mem_cons_self) (List.mem_singleton.mpr rfl) nofun rfl

theorem begun : ∀ part ∈ word.preorder, part.kind.isScopeGate = true →
    part.span.start ≠ word.span.start := by
  decide

/-- With a line break behind the class, the closure at the word is that of the class. -/
theorem innerClosure_closureAt_word :
    ((Outline.ofSource 1 (source ⟨3, 0⟩)).closureAt word.span.start).innerClosure =
      (body ⟨3, 0⟩).closure :=
  ((Outline.innerClosure_closureAt_iff 1
      ((by decide : (source ⟨3, 0⟩).root.IsNestedBy SyntaxNode.EndsBefore).mono
        fun _ _ before => before.isApartFrom)
      (walks_word ⟨3, 0⟩) (fun part below isGate _ => begun part below isGate)).2 _ _
        (definedIn_word ⟨3, 0⟩)).mpr ⟨rfl, Or.inr ⟨by decide, by decide⟩⟩

/-- Without it, the class has the span of the program, and the closure is that of the program. -/
theorem innerClosure_closureAt_ne :
    ¬∀ (number : Nat) (source : Source) (region : Region) (node : SyntaxNode),
      source.root.IsNestedBy SyntaxNode.EndsBefore → source.root.Walks region node →
        node.kind ∈ [.call, .identifier, .assignment, .operatorAssignment] →
          (∀ part ∈ node.preorder, part.kind.isScopeGate = true →
            part.span.start ≠ node.span.start) →
            ((Outline.ofSource number source).closureAt node.span.start).innerClosure =
              region.closure := by
  intro agree
  have same := agree 1 (source ⟨2, 3⟩) (body ⟨2, 3⟩) word (by decide) (walks_word ⟨2, 3⟩) (by decide)
    begun
  exact absurd same (by decide)

end SingleClass

end TagCheck
