import Mathlib.Data.List.Pairwise
import Mathlib.Order.Defs.LinearOrder
import Mathlib.Tactic.Order
import TagCheck.Tree.Node

namespace TagCheck

/-!
# Nested trees

In the tree of a source text every node encloses its children, and the children stand one behind the
other.  They may touch, as a method's name touches the parentheses behind it.  A scope gate is set
off by a keyword in front and behind, so that nothing touches one.  Then the gates around a position
are the gates around every node that contains it, but for those below the node.
-/

namespace Position

instance : LinearOrder Position where
  le_refl position := Or.inr ⟨rfl, Nat.le_refl _⟩
  le_trans _ _ _ := le_trans
  lt_iff_le_not_ge a b := by
    rw [not_le_iff_lt]
    refine ⟨fun before => ⟨?_, before⟩, And.right⟩
    exact before.imp_right fun ⟨sameLine, column⟩ => ⟨sameLine, Nat.le_of_lt column⟩
  le_antisymm _ _ := le_antisymm
  le_total := le_total
  toDecidableLE := inferInstance
  toDecidableEq := inferInstance
  toDecidableLT := inferInstance

end Position

namespace Span

theorem contains_iff
    {span : Span}
    {position : Position} :
    span.contains position = true ↔ span.start ≤ position ∧ position ≤ span.stop := by
  simp [contains]

theorem encloses_iff
    {span other : Span} :
    span.encloses other = true ↔ span.start ≤ other.start ∧ other.stop ≤ span.stop := by
  simp [encloses]

/-- A span contains what a span inside it contains. -/
theorem contains_of_encloses
    {span other : Span}
    {position : Position}
    (encloses : span.encloses other = true)
    (contains : other.contains position = true) :
    span.contains position = true := by
  rw [contains_iff] at contains ⊢
  rw [encloses_iff] at encloses
  exact ⟨encloses.1.trans contains.1, contains.2.trans encloses.2⟩

end Span

namespace SyntaxNode

theorem sizeOf_lt_of_mem_children
    {node child : SyntaxNode}
    (member : child ∈ node.children) :
    sizeOf child < sizeOf node := by
  have := List.sizeOf_lt_of_mem member
  cases node
  simp only [mk.sizeOf_spec] at *
  omega

/-- A property of all trees is proved from the children of a node to the node. -/
theorem induction
    {property : SyntaxNode → Prop}
    (step : ∀ node, (∀ child ∈ node.children, property child) → property node)
    (node : SyntaxNode) :
    property node :=
  step node fun child _isChild => induction step child
termination_by sizeOf node
decreasing_by exact sizeOf_lt_of_mem_children _isChild

theorem preorderAll_eq_flatMap
    (nodes : List SyntaxNode) :
    preorderAll nodes = nodes.flatMap preorder := by
  induction nodes with
  | nil =>
      rfl
  | cons node rest inductionHypothesis =>
      simp [preorderAll, inductionHypothesis]

/-- A node of a tree is its root or a node of a child. -/
theorem mem_preorder_iff
    {node part : SyntaxNode} :
    part ∈ node.preorder ↔ part = node ∨ ∃ child ∈ node.children, part ∈ child.preorder := by
  cases node
  simp [preorder, preorderAll_eq_flatMap]

theorem mem_preorder_self
    (node : SyntaxNode) :
    node ∈ node.preorder :=
  mem_preorder_iff.mpr (Or.inl rfl)

theorem mem_preorder_of_mem_children
    {node child part : SyntaxNode}
    (member : child ∈ node.children)
    (below : part ∈ child.preorder) :
    part ∈ node.preorder :=
  mem_preorder_iff.mpr (Or.inr ⟨child, member, below⟩)

theorem mem_preorder_trans
    {node part piece : SyntaxNode}
    (partOf : part ∈ node.preorder)
    (pieceOf : piece ∈ part.preorder) :
    piece ∈ node.preorder := by
  induction node using induction with
  | step node inductionHypothesis =>
      rcases mem_preorder_iff.mp partOf with rfl | ⟨child, member, below⟩
      · exact pieceOf
      · exact mem_preorder_of_mem_children member (inductionHypothesis child member below)

theorem sizeOf_le_of_mem_preorder
    {node part : SyntaxNode}
    (member : part ∈ node.preorder) :
    sizeOf part ≤ sizeOf node := by
  induction node using induction with
  | step node inductionHypothesis =>
      rcases mem_preorder_iff.mp member with rfl | ⟨child, isChild, below⟩
      · exact Nat.le_refl _
      · exact Nat.le_of_lt
          (Nat.lt_of_le_of_lt (inductionHypothesis child isChild below)
            (sizeOf_lt_of_mem_children isChild))

/-- No node stands below itself. -/
theorem ne_of_mem_preorder_child
    {node child part : SyntaxNode}
    (member : child ∈ node.children)
    (below : part ∈ child.preorder) :
    part ≠ node := by
  rintro rfl
  exact Nat.lt_irrefl _
    (Nat.lt_of_le_of_lt (sizeOf_le_of_mem_preorder below) (sizeOf_lt_of_mem_children member))

/-- Nothing stands below a leaf. -/
theorem eq_of_mem_preorder_leaf
    {leaf part : SyntaxNode}
    (isLeaf : leaf.children = [])
    (member : part ∈ leaf.preorder) :
    part = leaf := by
  rcases mem_preorder_iff.mp member with same | ⟨child, isChild, -⟩
  · exact same
  · rw [isLeaf] at isChild
    cases isChild

/-- A child in a role has this role. -/
theorem field_of_child?
    {node child : SyntaxNode}
    {field : NodeField}
    (found : node.child? field = some child) :
    child.field = some field := by
  simpa using List.find?_some found

theorem mem_children_of_child?
    {node child : SyntaxNode}
    {field : NodeField}
    (found : node.child? field = some child) :
    child ∈ node.children :=
  List.mem_of_find?_eq_some found

theorem mem_preorder_of_child?
    {node child : SyntaxNode}
    {field : NodeField}
    (found : node.child? field = some child) :
    child ∈ node.preorder :=
  mem_preorder_of_mem_children (mem_children_of_child? found) child.mem_preorder_self

/-- The node ends before the other one starts. -/
def EndsBefore (node other : SyntaxNode) : Prop :=
  node.span.stop < other.span.start

/-- The node ends before the other one starts, or where it starts. -/
def EndsBy (node other : SyntaxNode) : Prop :=
  node.span.stop ≤ other.span.start

/-- The node ends before the other one starts, or they touch at a place where no scope gate is. -/
def IsApartFrom (node other : SyntaxNode) : Prop :=
  node.EndsBefore other ∨
    node.span.stop = other.span.start ∧
      ∀ gate ∈ node.preorder ++ other.preorder, gate.kind.isScopeGate = true →
        gate.span.contains other.span.start = false

instance : DecidableRel EndsBefore := fun node other =>
  inferInstanceAs (Decidable (node.span.stop < other.span.start))

instance : DecidableRel EndsBy := fun node other =>
  inferInstanceAs (Decidable (node.span.stop ≤ other.span.start))

instance : DecidableRel IsApartFrom := fun node other =>
  inferInstanceAs
    (Decidable
      (node.EndsBefore other ∨
        node.span.stop = other.span.start ∧
          ∀ gate ∈ node.preorder ++ other.preorder, gate.kind.isScopeGate = true →
            gate.span.contains other.span.start = false))

theorem EndsBefore.isApartFrom
    {node other : SyntaxNode}
    (before : node.EndsBefore other) :
    node.IsApartFrom other :=
  Or.inl before

theorem IsApartFrom.endsBy
    {node other : SyntaxNode}
    (apart : node.IsApartFrom other) :
    node.EndsBy other :=
  apart.elim le_of_lt fun ⟨touch, _⟩ => le_of_eq touch

/-- Every node encloses its children, and of two children the earlier one precedes the later one. -/
structure IsNestedBy (precedes : SyntaxNode → SyntaxNode → Prop) (root : SyntaxNode) : Prop where
  start_le_stop : ∀ node ∈ root.preorder, node.span.start ≤ node.span.stop
  encloses_child : ∀ node ∈ root.preorder, ∀ child ∈ node.children,
    node.span.encloses child.span = true
  pairwise : ∀ node ∈ root.preorder, node.children.Pairwise precedes

instance (precedes : SyntaxNode → SyntaxNode → Prop) [DecidableRel precedes]
    (root : SyntaxNode) : Decidable (root.IsNestedBy precedes) :=
  decidable_of_iff
    ((∀ node ∈ root.preorder, node.span.start ≤ node.span.stop) ∧
      (∀ node ∈ root.preorder, ∀ child ∈ node.children, node.span.encloses child.span = true) ∧
      ∀ node ∈ root.preorder, node.children.Pairwise precedes)
    ⟨fun ⟨ordered, enclosed, pairwise⟩ => ⟨ordered, enclosed, pairwise⟩,
      fun ⟨ordered, enclosed, pairwise⟩ => ⟨ordered, enclosed, pairwise⟩⟩

namespace IsNestedBy

variable {precedes : SyntaxNode → SyntaxNode → Prop} {root : SyntaxNode}

theorem mono
    {follows : SyntaxNode → SyntaxNode → Prop}
    (nested : root.IsNestedBy precedes)
    (weaker : ∀ node other, precedes node other → follows node other) :
    root.IsNestedBy follows where
  start_le_stop := nested.start_le_stop
  encloses_child := nested.encloses_child
  pairwise node member := (nested.pairwise node member).imp (weaker _ _)

theorem of_mem
    {node : SyntaxNode}
    (nested : root.IsNestedBy precedes)
    (member : node ∈ root.preorder) :
    node.IsNestedBy precedes where
  start_le_stop part below := nested.start_le_stop part (mem_preorder_trans member below)
  encloses_child part below := nested.encloses_child part (mem_preorder_trans member below)
  pairwise part below := nested.pairwise part (mem_preorder_trans member below)

theorem child
    {child : SyntaxNode}
    (nested : root.IsNestedBy precedes)
    (member : child ∈ root.children) :
    child.IsNestedBy precedes :=
  nested.of_mem (mem_preorder_of_mem_children member child.mem_preorder_self)

/-- A node encloses all nodes below it. -/
theorem encloses
    {part : SyntaxNode}
    (nested : root.IsNestedBy precedes)
    (member : part ∈ root.preorder) :
    root.span.encloses part.span = true := by
  induction root using induction with
  | step root inductionHypothesis =>
      rcases mem_preorder_iff.mp member with rfl | ⟨child, isChild, below⟩
      · simp [Span.encloses]
      · have inChild := inductionHypothesis child isChild (nested.child isChild) below
        have inRoot := nested.encloses_child root root.mem_preorder_self child isChild
        rw [Span.encloses_iff] at inChild inRoot ⊢
        exact ⟨inRoot.1.trans inChild.1, inChild.2.trans inRoot.2⟩

/-- A node contains what a node below it contains. -/
theorem contains_of_mem
    {part : SyntaxNode}
    {position : Position}
    (nested : root.IsNestedBy precedes)
    (member : part ∈ root.preorder)
    (contains : part.span.contains position = true) :
    root.span.contains position = true :=
  Span.contains_of_encloses (nested.encloses member) contains

/-- A node contains its own start. -/
theorem contains_start
    {part : SyntaxNode}
    (nested : root.IsNestedBy precedes)
    (member : part ∈ root.preorder) :
    part.span.contains part.span.start = true :=
  Span.contains_iff.mpr ⟨le_rfl, nested.start_le_stop part member⟩

/-- A node contains the start of every node below it. -/
theorem contains_start_of_mem
    {node part : SyntaxNode}
    (nested : root.IsNestedBy precedes)
    (member : node ∈ root.preorder)
    (below : part ∈ node.preorder) :
    node.span.contains part.span.start = true :=
  (nested.of_mem member).contains_of_mem below
    (nested.contains_start (mem_preorder_trans member below))

/-- Of two children one precedes the other. -/
theorem precedes_or_precedes
    {first second : SyntaxNode}
    (nested : root.IsNestedBy precedes)
    (isFirst : first ∈ root.children)
    (isSecond : second ∈ root.children)
    (different : first ≠ second) :
    precedes first second ∨ precedes second first := by
  have inOrder := nested.pairwise root root.mem_preorder_self
  have eitherWay : root.children.Pairwise fun a b => precedes a b ∨ precedes b a :=
    inOrder.imp Or.inl
  have : Std.Symm fun a b => precedes a b ∨ precedes b a :=
    ⟨fun _ _ => Or.symm⟩
  exact eitherWay.forall isFirst isSecond different

end IsNestedBy

/-- No scope gate of two nodes that stand apart contains a position of the other one. -/
theorem IsApartFrom.not_contains
    {node other gate : SyntaxNode}
    {position : Position}
    (apart : node.IsApartFrom other ∨ other.IsApartFrom node)
    (inside : node.span.encloses gate.span = true)
    (member : gate ∈ node.preorder)
    (isGate : gate.kind.isScopeGate = true)
    (contains : gate.span.contains position = true) :
    other.span.contains position = false := by
  by_contra around
  rw [Bool.not_eq_false, Span.contains_iff] at around
  rw [Span.encloses_iff] at inside
  have within := Span.contains_iff.mp contains
  rcases apart with (before | ⟨touch, free⟩) | (before | ⟨touch, free⟩)
  · unfold EndsBefore at before
    order
  · have same : position = other.span.start := by order
    have notThere := free gate (List.mem_append_left _ member) isGate
    rw [← same, contains] at notThere
    cases notThere
  · unfold EndsBefore at before
    order
  · have same : position = node.span.start := by order
    have notThere := free gate (List.mem_append_right _ member) isGate
    rw [← same, contains] at notThere
    cases notThere

namespace IsNestedBy

variable {root : SyntaxNode}

/-- The child around a position of a scope gate is the one that the gate stands in. -/
theorem eq_of_contains
    {child other gate : SyntaxNode}
    {position : Position}
    (nested : root.IsNestedBy IsApartFrom)
    (isChild : child ∈ root.children)
    (isOther : other ∈ root.children)
    (member : gate ∈ child.preorder)
    (isGate : gate.kind.isScopeGate = true)
    (contains : gate.span.contains position = true)
    (around : other.span.contains position = true) :
    other = child := by
  by_contra different
  have notAround := IsApartFrom.not_contains
    (nested.precedes_or_precedes isChild isOther (Ne.symm different))
    ((nested.child isChild).encloses member) member isGate contains
  rw [around] at notAround
  cases notAround

/-- Of a scope gate and a node at one position, one stands in the other. -/
theorem mem_preorder_or_mem_preorder
    {gate node : SyntaxNode}
    {position : Position}
    (nested : root.IsNestedBy IsApartFrom)
    (gateMember : gate ∈ root.preorder)
    (nodeMember : node ∈ root.preorder)
    (isGate : gate.kind.isScopeGate = true)
    (contains : gate.span.contains position = true)
    (around : node.span.contains position = true) :
    node ∈ gate.preorder ∨ gate ∈ node.preorder := by
  induction root using induction with
  | step root inductionHypothesis =>
      rcases mem_preorder_iff.mp gateMember with rfl | ⟨child, isChild, inChild⟩
      · exact Or.inl nodeMember
      · rcases mem_preorder_iff.mp nodeMember with rfl | ⟨other, isOther, inOther⟩
        · exact Or.inr gateMember
        · -- The node stands in the child that the gate stands in.
          have aroundOther := (nested.child isOther).contains_of_mem inOther around
          obtain rfl := nested.eq_of_contains isChild isOther inChild isGate contains aroundOther
          exact inductionHypothesis other isOther (nested.child isOther) inChild inOther

/-- Of two nodes with one span that is not empty, one stands in the other. -/
theorem mem_preorder_or_mem_preorder_of_span_eq
    {first second : SyntaxNode}
    (nested : root.IsNestedBy EndsBy)
    (isFirst : first ∈ root.preorder)
    (isSecond : second ∈ root.preorder)
    (same : first.span = second.span)
    (shown : first.span.start < first.span.stop) :
    first ∈ second.preorder ∨ second ∈ first.preorder := by
  induction root using induction with
  | step root inductionHypothesis =>
      rcases mem_preorder_iff.mp isFirst with rfl | ⟨child, isChild, inChild⟩
      · exact Or.inr isSecond
      · rcases mem_preorder_iff.mp isSecond with rfl | ⟨other, isOther, inOther⟩
        · exact Or.inl isFirst
        · by_cases sameChild : child = other
          · subst sameChild
            exact inductionHypothesis child isChild (nested.child isChild) inChild inOther
          · -- Two children have no span in common.
            have around := Span.encloses_iff.mp ((nested.child isChild).encloses inChild)
            have aroundOther := Span.encloses_iff.mp ((nested.child isOther).encloses inOther)
            rw [← same] at aroundOther
            have apart := nested.precedes_or_precedes isChild isOther sameChild
            unfold EndsBy at apart
            rcases apart with before | behind
            · order
            · order

end IsNestedBy

/-- A node stands in a gate if no other scope gate is between them. -/
inductive StandsIn (gate : SyntaxNode) : SyntaxNode → Prop
  | itself : StandsIn gate gate
  | part {node child : SyntaxNode} (stands : StandsIn gate node) (member : child ∈ node.children)
      (notGate : child.kind.isScopeGate = false) :
      StandsIn gate child

namespace StandsIn

variable {gate node : SyntaxNode}

theorem mem_preorder
    (stands : gate.StandsIn node) :
    node ∈ gate.preorder := by
  induction stands with
  | itself =>
      exact gate.mem_preorder_self
  | part _ member _ inductionHypothesis =>
      exact mem_preorder_trans inductionHypothesis
        (mem_preorder_of_mem_children member (mem_preorder_self _))

/-- A scope gate stands in no gate but itself. -/
theorem eq_of_isScopeGate
    (stands : gate.StandsIn node)
    (isGate : node.kind.isScopeGate = true) :
    node = gate := by
  cases stands with
  | itself =>
      rfl
  | part _ _ notGate =>
      rw [isGate] at notGate
      cases notGate

/-- A scope gate below a gate, around a position of a node in it, is that gate or below the node. -/
theorem eq_or_mem_preorder
    {other : SyntaxNode}
    {position : Position}
    (stands : gate.StandsIn node)
    (nested : gate.IsNestedBy IsApartFrom)
    (below : other ∈ gate.preorder)
    (isGate : other.kind.isScopeGate = true)
    (contains : other.span.contains position = true)
    (around : node.span.contains position = true) :
    other = gate ∨ other ∈ node.preorder := by
  induction stands with
  | itself =>
      exact Or.inr below
  | @part node child stands member _ inductionHypothesis =>
      have nestedNode := nested.of_mem stands.mem_preorder
      have isPart := mem_preorder_of_mem_children member child.mem_preorder_self
      have aroundNode := nestedNode.contains_of_mem isPart around
      rcases inductionHypothesis aroundNode with same | belowNode
      · exact Or.inl same
      · rcases mem_preorder_iff.mp belowNode with rfl | ⟨sibling, isSibling, inSibling⟩
        · exact Or.inl (stands.eq_of_isScopeGate isGate)
        · obtain rfl :=
            nestedNode.eq_of_contains isSibling member inSibling isGate contains around
          exact Or.inr inSibling

end StandsIn

end SyntaxNode

end TagCheck
