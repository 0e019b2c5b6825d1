import TagCheck.Proofs.Outline.Closures
import TagCheck.Proofs.Outline.Shadowing

namespace TagCheck

/-!
# Homes of locals

A local is at home in the block or the definition that binds it, or else in the program.  It is
present there and bounded by the gate around: its home is in an opened gate, and it is visible in its
home as far as no gate inside of its own hides it.
-/

/-- Two spans are the same if neither is inside of the other. -/
theorem Span.eq_of_forall_not_isInside
    {first second : Span}
    (notInside : first.isInside second = false)
    (notAround : second.isInside first = false) :
    first = second := by
  rw [Bool.eq_false_iff, ne_eq, isInside_iff, not_or, not_and] at notInside notAround
  have sameStart : first.start = second.start := by order
  have notShorter := notInside.2 sameStart.symm
  have notLonger := notAround.2 sameStart
  have sameStop : first.stop = second.stop := by order
  cases first
  cases second
  simp_all

namespace Region

/-- The home of the locals in a walked node: the node itself if it opens a body or is a block. -/
def homeIn (region : Region) (home node : SyntaxNode) : SyntaxNode :=
  if node.isBlock || (region.bodyOf? node).isSome then node else home

/-- The gate of the locals in a walked node: the node itself if it opens a body. -/
def gateIn (region : Region) (gate node : SyntaxNode) : SyntaxNode :=
  if (region.bodyOf? node).isSome then node else gate

variable {region inner : Region} {home gate node : SyntaxNode}

/-- Blocks are no definitions. -/
theorem bodyOf?_of_isBlock
    (isBlock : node.isBlock = true) :
    region.bodyOf? node = none := by
  unfold SyntaxNode.isBlock at isBlock
  unfold bodyOf?
  split <;> simp_all

/-- The parts of a block are walked in the region of the block. -/
theorem eq_of_mem_walked_of_isBlock
    {child : SyntaxNode}
    (isBlock : node.isBlock = true)
    (member : (inner, child) ∈ region.walked node) :
    inner = region.ofBlock node.span := by
  have isKind : node.kind = .block ∨ node.kind = .lambda := by
    simpa [SyntaxNode.isBlock] using isBlock
  unfold walked at member
  rcases isKind with isKind | isKind
  all_goals
    simp only [isKind] at member
    obtain ⟨_, -, same⟩ := List.mem_map.mp member
    exact (congrArg Prod.fst same).symm

theorem homeIn_of_bodyOf?
    (opened : region.bodyOf? node = some inner) :
    region.homeIn home node = node ∧ region.gateIn gate node = node := by
  simp [homeIn, gateIn, opened]

theorem homeIn_of_isBlock
    (isBlock : node.isBlock = true) :
    region.homeIn home node = node ∧ region.gateIn gate node = gate := by
  simp [homeIn, gateIn, isBlock, bodyOf?_of_isBlock isBlock]

theorem homeIn_of_plain
    (notBlock : node.isBlock = false)
    (notOpened : region.bodyOf? node = none) :
    region.homeIn home node = home ∧ region.gateIn gate node = gate := by
  simp [homeIn, gateIn, notBlock, notOpened]

/-- A node opens a body, is a block, or belongs to what is around it. -/
@[elab_as_elim]
theorem homeIn_cases
    {motive : SyntaxNode → SyntaxNode → Prop}
    (region : Region)
    (home gate node : SyntaxNode)
    (body : ∀ inner, region.bodyOf? node = some inner → motive node node)
    (block : node.isBlock = true → motive node gate)
    (plain : node.isBlock = false → region.bodyOf? node = none → motive home gate) :
    motive (region.homeIn home node) (region.gateIn gate node) := by
  cases opened : region.bodyOf? node with
  | some inner =>
      obtain ⟨sameHome, sameGate⟩ := homeIn_of_bodyOf? opened
      rw [sameHome, sameGate]
      exact body inner opened
  | none =>
      cases isBlock : node.isBlock with
      | true =>
          obtain ⟨sameHome, sameGate⟩ := homeIn_of_isBlock isBlock
          rw [sameHome, sameGate]
          exact block isBlock
      | false =>
          obtain ⟨sameHome, sameGate⟩ := homeIn_of_plain isBlock opened
          rw [sameHome, sameGate]
          exact plain isBlock opened

/-- The span of the home is the presence of the locals, and that of the gate is their hard scope. -/
structure IsAt (region : Region) (home gate : SyntaxNode) : Prop where
  presence : region.presence = home.span
  hardScope : region.hardScope = gate.span

/-- Walked parts are at the home and the gate in their node. -/
theorem IsAt.of_mem_walked
    {child : SyntaxNode}
    (isAt : region.IsAt home gate)
    (member : (inner, child) ∈ region.walked node) :
    inner.IsAt (region.homeIn home node) (region.gateIn gate node) := by
  refine homeIn_cases region home gate node ?body ?block ?plain
  case body =>
    intro body opened
    obtain rfl := eq_of_bodyOf? opened member
    obtain ⟨-, hardScope, presence⟩ := of_bodyOf? opened
    exact ⟨presence, hardScope⟩
  case block =>
    intro isBlock
    rw [eq_of_mem_walked_of_isBlock isBlock member]
    exact ⟨rfl, isAt.hardScope⟩
  case plain =>
    intro notBlock notOpened
    rcases Region.of_mem_walked member with opened | ⟨-, rfl | ⟨isBlock, -⟩⟩
    · rw [notOpened] at opened
      cases opened
    · exact isAt
    · rw [notBlock] at isBlock
      cases isBlock

/-- What a node binds is at the home and the gate in the node. -/
theorem IsAt.of_mem_bindings
    {word : SyntaxNode}
    {bound : Binding}
    (isAt : region.IsAt home gate)
    (member : (word, bound) ∈ region.bindings node) :
    bound.scope.presence = (region.homeIn home node).span ∧
      bound.scope.hardScope = (region.gateIn gate node).span := by
  have ofParameter : ∀ {list : SyntaxNode} {presence hardScope : Span},
      (word, bound) ∈ list.parameterBindings presence hardScope →
        bound.scope.presence = presence ∧ bound.scope.hardScope = hardScope := by
    intro list presence hardScope inList
    obtain ⟨entry, -, inEntry⟩ := List.mem_flatMap.mp inList
    obtain ⟨parameter, -, same⟩ := List.mem_map.mp inEntry
    cases same
    exact ⟨rfl, rfl⟩
  have ofPlain : node.isBlock = false → region.bodyOf? node = none →
      region.presence = (region.homeIn home node).span ∧
        region.hardScope = (region.gateIn gate node).span := by
    intro notBlock notOpened
    obtain ⟨sameHome, sameGate⟩ := homeIn_of_plain notBlock notOpened
    rw [sameHome, sameGate]
    exact ⟨isAt.presence, isAt.hardScope⟩
  cases mem_bindings_iff.mp member with
  | methodParameter _ opened _ inList =>
      obtain ⟨sameHome, sameGate⟩ := homeIn_of_bodyOf? opened
      rw [sameHome, sameGate]
      exact ofParameter inList
  | blockParameter isKind _ inList =>
      have isBlock : node.isBlock = true := by
        simpa [SyntaxNode.isBlock] using isKind
      obtain ⟨sameHome, sameGate⟩ := homeIn_of_isBlock isBlock
      rw [sameHome, sameGate, ← isAt.hardScope]
      exact ofParameter inList
  | target isKind _ _ | entry isKind _ _ _ =>
      apply ofPlain
      · rcases isKind with isKind | isKind <;> simp [SyntaxNode.isBlock, isKind]
      · rcases isKind with isKind | isKind <;> simp [bodyOf?, isKind]
  | exception isKind _ | loop isKind _ _ =>
      apply ofPlain
      · simp [SyntaxNode.isBlock, isKind]
      · simp [bodyOf?, isKind]

end Region

namespace SyntaxNode

/-- A walked node, with the home and the gate around it; the program is the outermost one. -/
inductive WalksIn (root : SyntaxNode) : SyntaxNode → SyntaxNode → Region → SyntaxNode → Prop
  | statement {node : SyntaxNode} (member : node ∈ root.children) :
      WalksIn root root root (.ofProgram root.span) node
  | part {home gate node child : SyntaxNode} {region inner : Region}
      (walks : WalksIn root home gate region node)
      (member : (inner, child) ∈ region.walked node) :
      WalksIn root (region.homeIn home node) (region.gateIn gate node) inner child

/-- Every walked node has a home and a gate around it. -/
theorem Walks.exists_walksIn
    {root node : SyntaxNode}
    {region : Region}
    (walks : root.Walks region node) :
    ∃ home gate, root.WalksIn home gate region node := by
  induction walks with
  | statement member =>
      exact ⟨root, root, .statement member⟩
  | part _ member inductionHypothesis =>
      obtain ⟨home, gate, walksIn⟩ := inductionHypothesis
      exact ⟨_, _, walksIn.part member⟩

/-- The home stands in an opened gate; it is the program, or a block or a gate below the program. -/
structure IsHome (root home gate : SyntaxNode) : Prop where
  opens : root.Opens gate
  below : home ∈ gate.preorder
  topOrBelow : home = root ∧ gate = root ∨
    ∃ statement ∈ root.children, home ∈ statement.preorder ∧
      (home.isBlock || home.kind.isScopeGate) = true

/-- The home in a walked node stands in the gate in the node, and so does the node. -/
theorem IsHome.homeIn
    {root home gate node : SyntaxNode}
    {region : Region}
    (isHome : root.IsHome home gate)
    (walks : root.Walks region node)
    (below : node ∈ gate.preorder) :
    root.IsHome (region.homeIn home node) (region.gateIn gate node) ∧
      node ∈ (region.gateIn gate node).preorder := by
  obtain ⟨statement, isStatement, inStatement⟩ := walks.exists_child
  refine Region.homeIn_cases region home gate node ?body ?block ?plain
  case body =>
    intro inner opened
    refine ⟨⟨.definition walks opened, node.mem_preorder_self, Or.inr ?_⟩, node.mem_preorder_self⟩
    exact ⟨statement, isStatement, inStatement, by rw [(Region.of_bodyOf? opened).1, Bool.or_true]⟩
  case block =>
    intro isBlock
    refine ⟨⟨isHome.opens, below, Or.inr ?_⟩, below⟩
    exact ⟨statement, isStatement, inStatement, by rw [isBlock, Bool.true_or]⟩
  case plain =>
    intro _ _
    exact ⟨isHome, below⟩

namespace WalksIn

variable {root home gate node : SyntaxNode} {region : Region}

theorem walks
    (walksIn : root.WalksIn home gate region node) :
    root.Walks region node := by
  induction walksIn with
  | statement member =>
      exact .statement member
  | part _ member inductionHypothesis =>
      exact inductionHypothesis.part member

theorem isAt
    (walksIn : root.WalksIn home gate region node) :
    region.IsAt home gate := by
  induction walksIn with
  | statement _ =>
      exact ⟨rfl, rfl⟩
  | part _ member inductionHypothesis =>
      exact inductionHypothesis.of_mem_walked member

theorem isHome
    (walksIn : root.WalksIn home gate region node) :
    root.IsHome home gate ∧ node ∈ gate.preorder := by
  induction walksIn with
  | statement member =>
      exact ⟨⟨.program, root.mem_preorder_self, Or.inl ⟨rfl, rfl⟩⟩,
        mem_preorder_of_mem_children member (mem_preorder_self _)⟩
  | part walksIn member inductionHypothesis =>
      obtain ⟨isHome, below⟩ := inductionHypothesis
      obtain ⟨isHomeIn, belowIn⟩ := isHome.homeIn walksIn.walks below
      exact ⟨isHomeIn, mem_preorder_trans belowIn (Region.mem_preorder_of_mem_walked member)⟩

end WalksIn

/-- A local is bound in a home of a gate. -/
inductive BindsIn (root : SyntaxNode) : SyntaxNode → SyntaxNode → Pin → Prop
  | intro {home gate node word : SyntaxNode} {region : Region} {bound : Binding} {pin : Pin}
      (walksIn : root.WalksIn home gate region node)
      (member : (word, bound) ∈ region.bindings node)
      (ofPin : Binding.ofPin? pin = some bound) :
      BindsIn root (region.homeIn home node) (region.gateIn gate node) pin

namespace BindsIn

variable {root home gate : SyntaxNode} {pin : Pin}

theorem isHome
    (binds : root.BindsIn home gate pin) :
    root.IsHome home gate := by
  obtain ⟨walksIn, -, -⟩ := binds
  obtain ⟨isHome, below⟩ := walksIn.isHome
  exact (isHome.homeIn walksIn.walks below).1

/-- A local is present in its home, and its hard scope is its gate. -/
theorem exists_ofPin?
    (binds : root.BindsIn home gate pin) :
    ∃ bound, Binding.ofPin? pin = some bound ∧
      bound.scope = ⟨home.span, gate.span, pin.visibleFrom⟩ := by
  obtain ⟨walksIn, member, ofPin⟩ := binds
  obtain ⟨presence, hardScope⟩ := walksIn.isAt.of_mem_bindings member
  obtain ⟨scope, isLocal, rfl⟩ := Option.map_eq_some_iff.mp ofPin
  refine ⟨_, ofPin, ?_⟩
  have sameVisible : pin.visibleFrom = scope.visibleFrom := by
    simp [PinOf.visibleFrom, isLocal]
  rw [← presence, ← hardScope, sameVisible]

end BindsIn

theorem Opens.mem_preorder
    {root gate : SyntaxNode}
    (opens : root.Opens gate) :
    gate ∈ root.preorder := by
  cases opens with
  | program =>
      exact root.mem_preorder_self
  | definition walks _ =>
      exact walks.mem_preorder

end SyntaxNode

namespace Outline

open SyntaxNode

/-- Every local of a source is bound in a home. -/
theorem exists_bindsIn_of_mem_locals
    {number : Nat}
    {source : Source}
    {pin : Pin}
    (member : pin ∈ (ofSource number source).locals) :
    ∃ home gate, source.root.BindsIn home gate pin := by
  obtain ⟨word, ⟨walks, isBound, ofPin⟩⟩ := exists_binds_of_mem_locals member
  obtain ⟨home, gate, walksIn⟩ := walks.exists_walksIn
  exact ⟨_, _, .intro walksIn isBound ofPin⟩

/-- A gate around a position is the innermost one exactly if no opened one is inside of it. -/
theorem span_eq_innermostHardScope_iff
    {source : Source}
    {gate : SyntaxNode}
    {position : Position}
    (number : Nat)
    (opens : source.root.Opens gate)
    (around : gate.span.contains position = true) :
    gate.span = (ofSource number source).innermostHardScope position ↔
      ∀ other, source.root.Opens other → other.span.contains position = true →
        other.span.isInside gate.span = false := by
  constructor
  · intro innermost other otherOpens otherAround
    obtain ⟨-, -, notInside⟩ := innermostHardScope_spec number otherOpens otherAround
    rw [innermost]
    exact notInside
  · intro noneInside
    obtain ⟨contains, ⟨other, otherOpens, same⟩, notInside⟩ :=
      innermostHardScope_spec number opens around
    rw [← same] at contains notInside ⊢
    exact Span.eq_of_forall_not_isInside notInside (noneInside other otherOpens contains)

/--
A local is visible at a position exactly if the position is in its home, at or behind the place from
which it is visible, and no gate around the position is inside of its own.
-/
theorem mem_localsAt_iff_of_bindsIn
    {source : Source}
    {home gate : SyntaxNode}
    {pin : Pin}
    {position : Position}
    {precedes : SyntaxNode → SyntaxNode → Prop}
    (number : Nat)
    (nested : source.root.IsNestedBy precedes)
    (binds : source.root.BindsIn home gate pin) :
    pin ∈ (ofSource number source).localsAt position ↔
      pin ∈ (ofSource number source).locals ∧ home.span.contains position = true ∧
        pin.visibleFrom ≤ position ∧
        ∀ other, source.root.Opens other → other.span.contains position = true →
          other.span.isInside gate.span = false := by
  obtain ⟨bound, ofPin, sameScope⟩ := binds.exists_ofPin?
  obtain ⟨opens, below, -⟩ := binds.isHome
  have gateAround : home.span.contains position = true → gate.span.contains position = true :=
    (nested.of_mem opens.mem_preorder).contains_of_mem below
  rw [mem_localsAt_iff ofPin, sameScope]
  constructor
  · rintro ⟨isLocal, atHome, innermost, visible⟩
    have noneInside :=
      (span_eq_innermostHardScope_iff number opens (gateAround atHome)).mp innermost
    exact ⟨isLocal, atHome, visible, noneInside⟩
  · rintro ⟨isLocal, atHome, visible, noneInside⟩
    have innermost :=
      (span_eq_innermostHardScope_iff number opens (gateAround atHome)).mpr noneInside
    exact ⟨isLocal, atHome, innermost, visible⟩

end Outline

end TagCheck
