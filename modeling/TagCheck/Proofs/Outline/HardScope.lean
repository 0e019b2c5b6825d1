import TagCheck.Proofs.Outline.Entering

namespace TagCheck

/-!
# Gates and hard scopes

A survey opens a hard scope at the program and at each definition whose body it walks.  The locals
that it finds belong to the gate they stand in, for it never walks through a gate that it does not
open.
-/

namespace Span

theorem isInside_iff
    {inner outer : Span} :
    inner.isInside outer = true ↔
      outer.start < inner.start ∨ outer.start = inner.start ∧ inner.stop < outer.stop := by
  simp [isInside]

/-- A span that is enclosed and not inside is the same span. -/
theorem eq_of_not_isInside
    {inner outer : Span}
    (encloses : outer.encloses inner = true)
    (notInside : inner.isInside outer = false) :
    inner = outer := by
  rw [encloses_iff] at encloses
  rw [Bool.eq_false_iff, ne_eq, isInside_iff, not_or, not_and] at notInside
  obtain ⟨notBehind, notShorter⟩ := notInside
  have sameStart : outer.start = inner.start := by order
  have sameStop : outer.stop = inner.stop := by
    have := notShorter sameStart
    order
  cases inner
  cases outer
  simp_all

end Span

/-- There is an innermost item unless there is no item. -/
theorem innermost?_eq_none_iff
    {span : α → Span}
    {items : List α} :
    innermost? span items = none ↔ items = [] := by
  cases items with
  | nil =>
      simp [innermost?]
  | cons item rest =>
      unfold innermost?
      cases innermost? span rest with
      | none =>
          simp
      | some best =>
          by_cases isInside : (span best).isInside (span item) <;> simp [isInside]

/-- The innermost item is one of the items, and no item is inside of it. -/
theorem innermost?_spec
    {span : α → Span}
    {items : List α}
    {best : α}
    (found : innermost? span items = some best) :
    best ∈ items ∧ ∀ item ∈ items, (span item).isInside (span best) = false := by
  induction items generalizing best with
  | nil =>
      cases found
  | cons item rest inductionHypothesis =>
      have irrefl : ∀ span : Span, span.isInside span = false := by
        intro span
        simp [Span.isInside]
      unfold innermost? at found
      cases foundInRest : innermost? span rest with
      | none =>
          rw [foundInRest] at found
          cases found
          rw [innermost?_eq_none_iff.mp foundInRest]
          simpa using irrefl _
      | some inRest =>
          rw [foundInRest] at found
          obtain ⟨member, notInside⟩ := inductionHypothesis foundInRest
          dsimp only at found
          split at found
          · next isInside =>
              cases found
              refine ⟨List.mem_cons_of_mem _ member, ?_⟩
              intro other isOther
              rcases List.mem_cons.mp isOther with rfl | isOther
              · rw [Span.isInside_iff] at isInside
                rw [Bool.eq_false_iff, ne_eq, Span.isInside_iff]
                grind
              · exact notInside other isOther
          · next notInsideItem =>
              cases found
              refine ⟨List.mem_cons_self, ?_⟩
              intro other isOther
              rcases List.mem_cons.mp isOther with rfl | isOther
              · exact irrefl _
              · have notInsideBest := notInside other isOther
                rw [Span.isInside_iff] at notInsideItem
                rw [Bool.eq_false_iff, ne_eq, Span.isInside_iff] at notInsideBest ⊢
                grind

namespace SyntaxNode

/-- The gates of a program whose bodies are surveyed. -/
inductive Opens (root : SyntaxNode) : SyntaxNode → Prop
  | program : Opens root root
  | definition {region inner : Region} {node : SyntaxNode} (walks : root.Walks region node)
      (body : region.bodyOf? node = some inner) :
      Opens root node

/--
What the grammar guarantees of the tree of a source: it is a program and holds no other program, and
parameter lists, argument lists and patterns are no scope gates.
-/
structure IsProgram (root : SyntaxNode) : Prop where
  kind_eq : root.kind = .program
  notBelow : ∀ child ∈ root.children, ∀ node ∈ child.preorder, node.kind ≠ .program
  lists : ∀ node ∈ root.preorder,
    node.field ∈ [some .parameters, some .arguments, some .pattern] →
      node.kind.isScopeGate = false

/-- Blocks and lambdas, which share the locals around them. -/
def isBlock (node : SyntaxNode) : Bool :=
  node.kind = .block || node.kind = .lambda

/-- The words of a list are children of it. -/
theorem mem_children_of_mem_identifiers
    {list word : SyntaxNode}
    (member : word ∈ list.identifiers) :
    word ∈ list.children ∧ word.kind = .identifier := by
  obtain ⟨isChild, isWord⟩ := List.mem_filter.mp member
  exact ⟨isChild, of_decide_eq_true isWord⟩

theorem mem_preorder_of_mem_identifiers
    {list word : SyntaxNode}
    (member : word ∈ list.identifiers) :
    word ∈ list.preorder :=
  mem_preorder_of_mem_children (mem_children_of_mem_identifiers member).1 word.mem_preorder_self

/-- Walked nodes stand below the root. -/
theorem Walks.exists_child
    {root node : SyntaxNode}
    {region : Region}
    (walks : root.Walks region node) :
    ∃ child ∈ root.children, node ∈ child.preorder := by
  induction walks with
  | statement member =>
      exact ⟨_, member, mem_preorder_self _⟩
  | part _ member inductionHypothesis =>
      obtain ⟨child, isChild, below⟩ := inductionHypothesis
      exact ⟨child, isChild,
        mem_preorder_trans below (Region.mem_preorder_of_mem_walked member)⟩

end SyntaxNode

namespace Region

/-- The bodies of definitions: of namespaces, of singleton classes and of methods. -/
inductive IsBodyOf (region : Region) (node : SyntaxNode) : Region → Prop
  | ofNamespace {path : String}
      (isKind : node.kind = .classDefinition ∨ node.kind = .moduleDefinition)
      (defined : region.definedPath? node = some path) :
      IsBodyOf region node (region.ofNamespace path node.span)
  | ofSingletonClass
      (isKind : node.kind = .singletonClass) :
      IsBodyOf region node (region.ofSingletonClass node.span)
  | ofMethod {name : String} {scope : Scope}
      (isKind : node.kind = .method ∨ node.kind = .singletonMethod)
      (named : node.name? = some name) :
      IsBodyOf region node (region.ofMethod (region.methodClosure name scope) node.span)

theorem isBodyOf_of_bodyOf?
    {region inner : Region}
    {node : SyntaxNode}
    (body : region.bodyOf? node = some inner) :
    region.IsBodyOf node inner := by
  unfold bodyOf? at body
  split at body
  case h_1 isKind =>
    obtain ⟨path, defined, rfl⟩ := Option.map_eq_some_iff.mp body
    exact .ofNamespace (Or.inl isKind) defined
  case h_2 isKind =>
    obtain ⟨path, defined, rfl⟩ := Option.map_eq_some_iff.mp body
    exact .ofNamespace (Or.inr isKind) defined
  case h_3 isKind =>
    obtain ⟨value, -, opened⟩ := Option.bind_eq_some_iff.mp body
    split at opened
    · cases opened
      exact .ofSingletonClass isKind
    · cases opened
  case h_4 isKind =>
    obtain ⟨name, named, rfl⟩ := Option.map_eq_some_iff.mp body
    exact .ofMethod (Or.inl isKind) named
  case h_5 isKind =>
    obtain ⟨object, -, opened⟩ := Option.bind_eq_some_iff.mp body
    split at opened
    · obtain ⟨name, named, rfl⟩ := Option.map_eq_some_iff.mp opened
      exact .ofMethod (Or.inr isKind) named
    · cases opened
  case h_6 =>
    cases body

/-- A body is the body of a gate, which is its hard scope and the presence of its locals. -/
theorem of_bodyOf?
    {region inner : Region}
    {node : SyntaxNode}
    (body : region.bodyOf? node = some inner) :
    node.kind.isScopeGate = true ∧ inner.hardScope = node.span ∧ inner.presence = node.span := by
  cases isBodyOf_of_bodyOf? body with
  | ofNamespace isKind _ =>
      rcases isKind with isKind | isKind <;> simp [isKind, NodeKind.isScopeGate, ofNamespace]
  | ofSingletonClass isKind =>
      simp [isKind, NodeKind.isScopeGate, ofSingletonClass]
  | ofMethod isKind _ =>
      rcases isKind with isKind | isKind <;> simp [isKind, NodeKind.isScopeGate, ofMethod]

/-- Walked parts stand in the body of a definition, in a block, or in the region around them. -/
theorem of_mem_walked
    {region inner : Region}
    {node child : SyntaxNode}
    (member : (inner, child) ∈ region.walked node) :
    region.bodyOf? node = some inner ∨
      (node.kind.isScopeGate = true → node.kind = .program) ∧
        (inner = region ∨ node.isBlock = true ∧ inner = region.ofBlock node.span) := by
  have eq_of_mem_map : ∀ {outer : Region} {nodes : List SyntaxNode},
      (inner, child) ∈ nodes.map (outer, ·) → inner = outer := by
    intro outer nodes mapped
    obtain ⟨_, -, same⟩ := List.mem_map.mp mapped
    cases same
    rfl
  unfold walked at member
  split at member
  case h_1 | h_2 | h_3 | h_4 | h_5 =>
    split at member
    · next body =>
        rw [eq_of_mem_map member]
        exact Or.inl body
    · cases member
  case h_6 isKind | h_7 isKind | h_13 isKind =>
    rw [isKind]
    exact Or.inr ⟨by decide, Or.inl (eq_of_mem_map member)⟩
  case h_8 isCall =>
    rw [isCall]
    refine Or.inr ⟨by decide, Or.inl ?_⟩
    split at member
    · exact eq_of_mem_map member
    · exact eq_of_mem_map member
  case h_9 isWord =>
    rw [isWord]
    refine Or.inr ⟨by decide, Or.inl ?_⟩
    split at member
    · cases member
    · exact eq_of_mem_map member
  case h_10 isKind | h_11 isKind =>
    refine Or.inr ⟨by rw [isKind]; decide, Or.inr ⟨?_, eq_of_mem_map member⟩⟩
    simp [SyntaxNode.isBlock, isKind]
  case h_12 =>
    cases member
  case h_14 =>
    refine Or.inr ⟨fun isGate => ?_, Or.inl (eq_of_mem_map member)⟩
    unfold NodeKind.isScopeGate at isGate
    split at isGate
    case h_1 isProgram => exact isProgram
    all_goals contradiction

end Region

namespace SyntaxNode

/--
The gate that a walked node belongs to: its span is the hard scope of the node's locals, and no other
gate is between them.  The locals are present in the gate, or in a block around the node.
-/
structure Houses (root gate : SyntaxNode) (region : Region) (node : SyntaxNode) : Prop where
  opens : root.Opens gate
  hardScope : region.hardScope = gate.span
  stands : node.kind.isScopeGate = false → gate.StandsIn node
  presence : region.presence = gate.span ∨
    ∃ block ∈ root.preorder, block.isBlock = true ∧ node ∈ block.preorder ∧
      region.presence = block.span

/-- Every walked node belongs to an opened gate. -/
theorem Walks.exists_houses
    {root node : SyntaxNode}
    {region : Region}
    (program : root.IsProgram)
    (walks : root.Walks region node) :
    ∃ gate, root.Houses gate region node := by
  induction walks with
  | @statement node member =>
      exact ⟨root, .program, rfl, fun notGate => .part .itself member notGate, Or.inl rfl⟩
  | @part region inner node child walks member inductionHypothesis =>
      rcases Region.of_mem_walked member with body | ⟨onlyProgram, sameOrBlock⟩
      · -- The body of a definition belongs to the definition.
        obtain ⟨isGate, hardScope, presence⟩ := Region.of_bodyOf? body
        refine ⟨node, .definition walks body, hardScope, fun notGate => ?_, Or.inl presence⟩
        rcases Region.mem_of_mem_walked member with isChild | ⟨isCall, -, -⟩
        · exact .part .itself isChild notGate
        · rw [isCall] at isGate
          cases isGate
      · obtain ⟨gate, houses⟩ := inductionHypothesis
        have notGate : node.kind.isScopeGate = false := by
          rw [Bool.eq_false_iff]
          intro isGate
          obtain ⟨statement, isStatement, below⟩ := walks.exists_child
          exact program.notBelow statement isStatement node below (onlyProgram isGate)
        have stands : child.kind.isScopeGate = false → gate.StandsIn child := by
          intro childNotGate
          rcases Region.mem_of_mem_walked member with isChild | ⟨-, -, list, found, isStatement⟩
          · exact .part (houses.stands notGate) isChild childNotGate
          · have isChild := mem_children_of_child? found
            have listMember :=
              mem_preorder_trans walks.mem_preorder (mem_preorder_of_child? found)
            have listNotGate := program.lists list listMember (by simp [field_of_child? found])
            exact .part (.part (houses.stands notGate) isChild listNotGate)
              (List.mem_filter.mp isStatement).1 childNotGate
        have inNode := Region.mem_preorder_of_mem_walked member
        rcases sameOrBlock with rfl | ⟨isBlock, rfl⟩
        · refine ⟨gate, houses.opens, houses.hardScope, stands, ?_⟩
          rcases houses.presence with same | ⟨block, isPart, isBlock, below, same⟩
          · exact Or.inl same
          · exact Or.inr ⟨block, isPart, isBlock, mem_preorder_trans below inNode, same⟩
        · exact ⟨gate, houses.opens, houses.hardScope, stands,
            Or.inr ⟨node, walks.mem_preorder, isBlock, inNode, rfl⟩⟩

/-- Opened gates are scope gates of the program. -/
theorem Opens.isScopeGate
    {root gate : SyntaxNode}
    (program : root.IsProgram)
    (opens : root.Opens gate) :
    gate ∈ root.preorder ∧ gate.kind.isScopeGate = true := by
  cases opens with
  | program =>
      rw [program.kind_eq]
      exact ⟨root.mem_preorder_self, rfl⟩
  | definition walks body =>
      exact ⟨walks.mem_preorder, (Region.of_bodyOf? body).1⟩

end SyntaxNode

/-- The hard scopes of a program are the spans of its opened gates. -/
theorem Survey.mem_hardScopes_iff
    {root : SyntaxNode}
    {source : SourceLabel}
    {span : Span} :
    span ∈ (Survey.ofProgram source root).hardScopes ↔ ∃ gate, root.Opens gate ∧ gate.span = span := by
  rw [(isListed_hardScopes source).ofProgram root, List.mem_append, List.mem_flatMap]
  constructor
  · rintro (isProgram | ⟨⟨region, node⟩, entered, ofNode⟩)
    · exact ⟨root, .program, (List.mem_singleton.mp isProgram).symm⟩
    · obtain ⟨inner, body, same⟩ := List.mem_map.mp ofNode
      exact ⟨node, .definition (SyntaxNode.mem_surveyed_iff.mp entered) (Option.mem_toList.mp body),
        same⟩
  · rintro ⟨gate, opens, rfl⟩
    cases opens with
    | program =>
        exact Or.inl (List.mem_singleton.mpr rfl)
    | @definition region inner node walks body =>
        exact Or.inr ⟨(region, gate), SyntaxNode.mem_surveyed_iff.mpr walks,
          by simp [Region.hardScopes, body]⟩

namespace SyntaxNode

/-- The nearest scope gate around a leaf, such as a word. -/
structure IsGateOf (root gate leaf : SyntaxNode) : Prop where
  member : gate ∈ root.preorder
  isGate : gate.kind.isScopeGate = true
  stands : gate.StandsIn leaf
  isLeaf : leaf.children = []
  notGate : leaf.kind.isScopeGate = false

/-- The innermost opened gate around a node; gates that a survey skips may be between them. -/
structure IsOpenedAround (root gate node : SyntaxNode) : Prop where
  opens : root.Opens gate
  around : node ∈ gate.preorder
  innermost : ∀ other ∈ gate.preorder, root.Opens other → node ∈ other.preorder → other = gate

/-- A gate below a leaf would be the leaf. -/
theorem not_mem_preorder_of_isScopeGate
    {leaf gate : SyntaxNode}
    (isLeaf : leaf.children = [])
    (notGate : leaf.kind.isScopeGate = false)
    (isGate : gate.kind.isScopeGate = true) :
    gate ∉ leaf.preorder := by
  intro below
  rw [eq_of_mem_preorder_leaf isLeaf below, notGate] at isGate
  cases isGate

namespace IsGateOf

variable {root gate leaf : SyntaxNode}

theorem leaf_mem
    (gateOf : root.IsGateOf gate leaf) :
    leaf ∈ root.preorder :=
  mem_preorder_trans gateOf.member gateOf.stands.mem_preorder

/-- A gate that contains the start of a leaf is around the leaf. -/
theorem mem_preorder_of_contains
    {other : SyntaxNode}
    (gateOf : root.IsGateOf gate leaf)
    (nested : root.IsNestedBy IsApartFrom)
    (otherMember : other ∈ root.preorder)
    (otherIsGate : other.kind.isScopeGate = true)
    (contains : other.span.contains leaf.span.start = true) :
    leaf ∈ other.preorder :=
  (nested.mem_preorder_or_mem_preorder otherMember gateOf.leaf_mem otherIsGate contains
    (nested.contains_start gateOf.leaf_mem)).resolve_right
      (not_mem_preorder_of_isScopeGate gateOf.isLeaf gateOf.notGate otherIsGate)

/-- No gate is between a leaf and its nearest gate. -/
theorem eq_of_mem_preorder
    {other : SyntaxNode}
    (gateOf : root.IsGateOf gate leaf)
    (nested : root.IsNestedBy IsApartFrom)
    (below : other ∈ gate.preorder)
    (otherIsGate : other.kind.isScopeGate = true)
    (contains : other.span.contains leaf.span.start = true) :
    other = gate :=
  (gateOf.stands.eq_or_mem_preorder (nested.of_mem gateOf.member) below otherIsGate contains
    (nested.contains_start gateOf.leaf_mem)).resolve_right
      (not_mem_preorder_of_isScopeGate gateOf.isLeaf gateOf.notGate otherIsGate)

/-- The nearest gate of a leaf stands in every gate that contains the start of the leaf. -/
theorem mem_preorder
    {other : SyntaxNode}
    (gateOf : root.IsGateOf gate leaf)
    (nested : root.IsNestedBy IsApartFrom)
    (otherMember : other ∈ root.preorder)
    (otherIsGate : other.kind.isScopeGate = true)
    (contains : other.span.contains leaf.span.start = true) :
    gate ∈ other.preorder := by
  have inGate := nested.contains_start_of_mem gateOf.member gateOf.stands.mem_preorder
  rcases nested.mem_preorder_or_mem_preorder gateOf.member otherMember gateOf.isGate inGate
    contains with below | around
  · rw [gateOf.eq_of_mem_preorder nested below otherIsGate contains]
    exact gate.mem_preorder_self
  · exact around

/-- A leaf has one nearest gate. -/
theorem unique
    {other : SyntaxNode}
    (gateOf : root.IsGateOf gate leaf)
    (nested : root.IsNestedBy IsApartFrom)
    (otherOf : root.IsGateOf other leaf) :
    other = gate := by
  have start := nested.contains_start gateOf.leaf_mem
  have inGate := (nested.of_mem gateOf.member).contains_of_mem gateOf.stands.mem_preorder start
  have below := otherOf.mem_preorder nested gateOf.member gateOf.isGate inGate
  have inOther := (nested.of_mem otherOf.member).contains_of_mem otherOf.stands.mem_preorder start
  exact gateOf.eq_of_mem_preorder nested below otherOf.isGate inOther

/-- If the nearest gate of a leaf is opened, then it is the innermost opened one. -/
theorem isOpenedAround
    (gateOf : root.IsGateOf gate leaf)
    (nested : root.IsNestedBy IsApartFrom)
    (program : root.IsProgram)
    (opens : root.Opens gate) :
    root.IsOpenedAround gate leaf where
  opens := opens
  around := gateOf.stands.mem_preorder
  innermost other below otherOpens inOther := by
    obtain ⟨otherMember, otherIsGate⟩ := otherOpens.isScopeGate program
    have contains := nested.contains_start_of_mem otherMember inOther
    exact gateOf.eq_of_mem_preorder nested below otherIsGate contains

end IsGateOf

end SyntaxNode

namespace Outline

/-- An opened gate around a position is at or around the innermost hard scope there. -/
theorem innermostHardScope_spec
    {source : Source}
    {gate : SyntaxNode}
    {position : Position}
    (number : Nat)
    (opens : source.root.Opens gate)
    (contains : gate.span.contains position = true) :
    ((ofSource number source).innermostHardScope position).contains position = true ∧
      (∃ other, source.root.Opens other ∧
        other.span = (ofSource number source).innermostHardScope position) ∧
      gate.span.isInside ((ofSource number source).innermostHardScope position) = false := by
  have candidate :
      gate.span ∈ (ofSource number source).hardScopes.filter (·.contains position) :=
    List.mem_filter.mpr ⟨Survey.mem_hardScopes_iff.mpr ⟨gate, opens, rfl⟩, contains⟩
  unfold innermostHardScope
  cases found : innermost? id ((ofSource number source).hardScopes.filter (·.contains position)) with
  | none =>
      rw [innermost?_eq_none_iff.mp found] at candidate
      cases candidate
  | some best =>
      obtain ⟨isBest, notInside⟩ := innermost?_spec found
      obtain ⟨isHardScope, bestContains⟩ := List.mem_filter.mp isBest
      exact ⟨bestContains, Survey.mem_hardScopes_iff.mp isHardScope, notInside gate.span candidate⟩

/-- The innermost hard scope at a leaf is that of the innermost opened gate around it. -/
theorem innermostHardScope_eq
    {source : Source}
    {gate nearest leaf : SyntaxNode}
    (number : Nat)
    (nested : source.root.IsNestedBy SyntaxNode.IsApartFrom)
    (program : source.root.IsProgram)
    (gateOf : source.root.IsGateOf nearest leaf)
    (opened : source.root.IsOpenedAround gate leaf) :
    (ofSource number source).innermostHardScope leaf.span.start = gate.span := by
  obtain ⟨gateMember, isGate⟩ := opened.opens.isScopeGate program
  have inGate := nested.contains_start_of_mem gateMember opened.around
  obtain ⟨contains, ⟨other, otherOpens, same⟩, notInside⟩ :=
    innermostHardScope_spec number opened.opens inGate
  obtain ⟨otherMember, otherIsGate⟩ := otherOpens.isScopeGate program
  rw [← same] at contains notInside ⊢
  rcases nested.mem_preorder_or_mem_preorder gateMember otherMember isGate inGate contains with
    below | around
  · -- The gate of the hard scope is an opened gate around the leaf, and not below the innermost one.
    have inOther := gateOf.mem_preorder_of_contains nested otherMember otherIsGate contains
    rw [opened.innermost other below otherOpens inOther]
  · exact (Span.eq_of_not_isInside ((nested.of_mem otherMember).encloses around) notInside).symm

end Outline

end TagCheck
