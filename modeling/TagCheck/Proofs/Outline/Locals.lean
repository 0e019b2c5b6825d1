import TagCheck.CoreLibrary.Stub
import TagCheck.Proofs.Outline.HardScope

namespace TagCheck

/-!
# Locals do not cross opened gates

A local is visible where its own hard scope is the innermost one.  So code sees only locals of the
gate that it stands in, if that gate is opened.  A gate that the survey skips, such as a method of an
object, opens no hard scope, and code in it sees the locals around it.
-/

namespace Region

/-- How a node binds a word: as a parameter, as a target, or in a rescue clause or a loop. -/
inductive BindsAt (region : Region) (node : SyntaxNode) : SyntaxNode → Binding → Prop
  | methodParameter {inner : Region} {list word : SyntaxNode} {bound : Binding}
      (isMethod : node.kind = .method ∨ node.kind = .singletonMethod)
      (body : region.bodyOf? node = some inner)
      (found : node.child? .parameters = some list)
      (member : (word, bound) ∈ list.parameterBindings node.span node.span) :
      BindsAt region node word bound
  | blockParameter {list word : SyntaxNode} {bound : Binding}
      (isBlock : node.kind = .block ∨ node.kind = .lambda)
      (found : node.child? .parameters = some list)
      (member : (word, bound) ∈ list.parameterBindings node.span region.hardScope) :
      BindsAt region node word bound
  | target {word : SyntaxNode}
      (isAssignment : node.kind = .assignment ∨ node.kind = .operatorAssignment)
      (found : node.child? .left = some word)
      (isWord : word.kind = .identifier) :
      BindsAt region node word (region.bindingAt word node (node.child? .right)).2
  | entry {list word : SyntaxNode}
      (isAssignment : node.kind = .assignment ∨ node.kind = .operatorAssignment)
      (found : node.child? .left = some list)
      (isList : list.kind = .leftAssignmentList)
      (member : word ∈ list.identifiers) :
      BindsAt region node word (region.bindingAt word word none).2
  | exception {word : SyntaxNode}
      (isKind : node.kind = .other "exception_variable")
      (member : word ∈ node.identifiers) :
      BindsAt region node word (region.bindingAt word node none).2
  | loop {pattern word : SyntaxNode}
      (isKind : node.kind = .other "for")
      (found : node.child? .pattern = some pattern)
      (member : word ∈ pattern.loopTargets) :
      BindsAt region node word (region.bindingAt word pattern none).2

/-- What a node binds on its left is a word or the entries of a list. -/
theorem bindsAt_of_mem_targetBindings
    {region : Region}
    {node word : SyntaxNode}
    {bound : Binding}
    (isAssignment : node.kind = .assignment ∨ node.kind = .operatorAssignment)
    (member : (word, bound) ∈
      (node.child? .left).toList.flatMap (region.targetBindings node)) :
    region.BindsAt node word bound := by
  obtain ⟨target, found, inTarget⟩ := List.mem_flatMap.mp member
  have found := Option.mem_toList.mp found
  unfold targetBindings at inTarget
  split at inTarget
  · next isWord =>
      cases List.mem_singleton.mp inTarget
      exact .target isAssignment found isWord
  · next isList =>
      obtain ⟨name, isName, same⟩ := List.mem_map.mp inTarget
      cases same
      exact .entry isAssignment found isList isName
  · cases inTarget

/-- A node binds words in these ways and in no other. -/
theorem mem_bindings_iff
    {region : Region}
    {node word : SyntaxNode}
    {bound : Binding} :
    (word, bound) ∈ region.bindings node ↔ region.BindsAt node word bound := by
  have ofMethod : (node.kind = .method ∨ node.kind = .singletonMethod) →
      ((word, bound) ∈ if (region.bodyOf? node).isSome then
        (node.child? .parameters).toList.flatMap (·.parameterBindings node.span node.span)
      else []) → region.BindsAt node word bound := by
    intro isMethod member
    split at member
    · next opened =>
        obtain ⟨inner, body⟩ := Option.isSome_iff_exists.mp opened
        obtain ⟨list, found, inList⟩ := List.mem_flatMap.mp member
        exact .methodParameter isMethod body (Option.mem_toList.mp found) inList
    · cases member
  have ofBlock : (node.kind = .block ∨ node.kind = .lambda) →
      (word, bound) ∈ (node.child? .parameters).toList.flatMap
        (·.parameterBindings node.span region.hardScope) → region.BindsAt node word bound := by
    intro isBlock member
    obtain ⟨list, found, inList⟩ := List.mem_flatMap.mp member
    exact .blockParameter isBlock (Option.mem_toList.mp found) inList
  constructor
  · intro member
    unfold bindings at member
    dsimp only at member
    split at member
    case h_1 isKind => exact ofMethod (Or.inl isKind) member
    case h_2 isKind => exact ofMethod (Or.inr isKind) member
    case h_3 isKind => exact bindsAt_of_mem_targetBindings (Or.inl isKind) member
    case h_4 isKind => exact bindsAt_of_mem_targetBindings (Or.inr isKind) member
    case h_5 isKind => exact ofBlock (Or.inl isKind) member
    case h_6 isKind => exact ofBlock (Or.inr isKind) member
    case h_7 isKind =>
      obtain ⟨name, isName, same⟩ := List.mem_map.mp member
      cases same
      exact .exception isKind isName
    case h_8 isKind =>
      obtain ⟨pattern, found, inPattern⟩ := List.mem_flatMap.mp member
      obtain ⟨name, isName, same⟩ := List.mem_map.mp inPattern
      cases same
      exact .loop isKind (Option.mem_toList.mp found) isName
    case h_9 =>
      cases member
  · intro binds
    unfold bindings
    cases binds with
    | methodParameter isMethod body found member =>
        rcases isMethod with isKind | isKind <;> simpa [isKind, body, found] using member
    | blockParameter isBlock found member =>
        rcases isBlock with isKind | isKind <;> simpa [isKind, found] using member
    | target isAssignment found isWord =>
        rcases isAssignment with isKind | isKind <;>
          simp [isKind, found, targetBindings, isWord, bindingAt]
    | entry isAssignment found isList member =>
        rcases isAssignment with isKind | isKind
        all_goals
          simp only [isKind, found, targetBindings, isList, Option.toList_some,
            List.flatMap_singleton]
          exact List.mem_map.mpr ⟨word, member, rfl⟩
    | exception isKind member =>
        rw [isKind]
        exact List.mem_map.mpr ⟨word, member, rfl⟩
    | loop isKind found member =>
        simp only [isKind, found, Option.toList_some, List.flatMap_singleton]
        exact List.mem_map.mpr ⟨word, member, rfl⟩

end Region

namespace SyntaxNode

/-- A word of a program binds a local. -/
inductive Binds (root word : SyntaxNode) (pin : Pin) : Prop
  | intro {region : Region} {node : SyntaxNode} {bound : Binding}
      (walks : root.Walks region node)
      (member : (word, bound) ∈ region.bindings node)
      (ofPin : Binding.ofPin? pin = some bound)

/-- An entry of a parameter list that binds parameters is no gate, and they stand in it. -/
theorem of_mem_boundParameters
    {entry parameter : SyntaxNode}
    {name : String}
    {kind : ParameterKind}
    (member : (name, kind, parameter) ∈ entry.boundParameters) :
    entry.kind.isScopeGate = false ∧
      (parameter = entry ∨ parameter ∈ entry.children ∧ parameter.kind = .identifier) := by
  unfold boundParameters at member
  split at member
  · next isPattern =>
      obtain ⟨word, isWord, same⟩ := List.mem_map.mp member
      cases same
      rw [isPattern]
      exact ⟨rfl, Or.inr (mem_children_of_mem_identifiers isWord)⟩
  · split at member
    · next found =>
        dsimp only at member
        split at member
        · cases member
        · cases List.mem_singleton.mp member
          refine ⟨?_, Or.inl rfl⟩
          unfold parameterKind? at found
          split at found
          case h_7 => cases found
          all_goals
            next isParameter =>
              rw [isParameter]
              rfl
    · cases member

/-- The word that names a parameter is the parameter or stands in it. -/
theorem parameterWord_eq_or_mem
    (parameter : SyntaxNode) :
    parameter.parameterWord = parameter ∨ parameter.parameterWord ∈ parameter.children := by
  unfold parameterWord nameNode?
  cases named : parameter.child? .name with
  | some word =>
      exact Or.inr (mem_children_of_child? named)
  | none =>
      cases called : parameter.child? .method with
      | some word =>
          exact Or.inr (mem_children_of_child? called)
      | none =>
          exact Or.inl rfl

/-- The words of a parameter list stand in the gate of the list. -/
theorem StandsIn.of_mem_parameterBindings
    {gate list word : SyntaxNode}
    {presence hardScope : Span}
    {bound : Binding}
    (stands : gate.StandsIn list)
    (member : (word, bound) ∈ list.parameterBindings presence hardScope)
    (notGate : word.kind.isScopeGate = false) :
    gate.StandsIn word ∧ bound.scope = ⟨presence, hardScope, presence.start⟩ := by
  obtain ⟨entry, isEntry, inEntry⟩ := List.mem_flatMap.mp member
  obtain ⟨⟨name, kind, parameter⟩, isBound, same⟩ := List.mem_map.mp inEntry
  cases same
  refine ⟨?_, rfl⟩
  obtain ⟨entryNotGate, entryOrWord⟩ := of_mem_boundParameters isBound
  have standsEntry : gate.StandsIn entry := .part stands isEntry entryNotGate
  have standsParameter : gate.StandsIn parameter := by
    rcases entryOrWord with rfl | ⟨isChild, isIdentifier⟩
    · exact standsEntry
    · exact .part standsEntry isChild (by rw [isIdentifier]; rfl)
  rcases parameter.parameterWord_eq_or_mem with same | isChild
  · rw [same]
    exact standsParameter
  · exact .part standsParameter isChild notGate

/--
The gate that a binding belongs to: its span is the hard scope, and no other gate is between it and
the word.  The local is present in the gate, or in a block around the node that binds it.
-/
structure OwnsBinding (root gate node word : SyntaxNode) (scope : LocalScope) : Prop where
  opens : root.Opens gate
  stands : gate.StandsIn word
  hardScope : scope.hardScope = gate.span
  presence : scope.presence = gate.span ∨
    ∃ block ∈ root.preorder, block.isBlock = true ∧ node ∈ block.preorder ∧
      scope.presence = block.span

/-- What a walked node binds belongs to an opened gate. -/
theorem Walks.exists_ownsBinding
    {root node word : SyntaxNode}
    {region : Region}
    {bound : Binding}
    (program : root.IsProgram)
    (walks : root.Walks region node)
    (member : (word, bound) ∈ region.bindings node)
    (notGate : word.kind.isScopeGate = false) :
    ∃ gate, root.OwnsBinding gate node word bound.scope := by
  obtain ⟨gate, houses⟩ := walks.exists_houses program
  -- The lists that hold words are no gates.
  have listNotGate : ∀ {child : SyntaxNode} {field : NodeField},
      node.child? field = some child →
        some field ∈ [some .parameters, some .arguments, some .pattern] →
          child.kind.isScopeGate = false := by
    intro child field found isList
    refine program.lists child
      (mem_preorder_trans walks.mem_preorder (mem_preorder_of_child? found)) ?_
    rwa [field_of_child? found]
  have ofRegion : ∀ {binder : SyntaxNode} {value : Option SyntaxNode},
      gate.StandsIn word → ∃ gate, root.OwnsBinding gate node word
        (region.bindingAt word binder value).2.scope :=
    fun stands => ⟨gate, houses.opens, stands, houses.hardScope, houses.presence⟩
  cases Region.mem_bindings_iff.mp member with
  | @methodParameter inner list _ _ isMethod body found inList =>
      -- Methods own their parameters.
      have standsList : node.StandsIn list :=
        .part .itself (mem_children_of_child? found) (listNotGate found (by simp))
      obtain ⟨stands, sameScope⟩ := standsList.of_mem_parameterBindings inList notGate
      exact ⟨node, .definition walks body, stands, by rw [sameScope], Or.inl (by rw [sameScope])⟩
  | @blockParameter list _ _ blockKind found inList =>
      -- Blocks share the hard scope around them.
      have standsNode : gate.StandsIn node :=
        houses.stands (by rcases blockKind with isKind | isKind <;> rw [isKind] <;> rfl)
      have standsList : gate.StandsIn list :=
        .part standsNode (mem_children_of_child? found) (listNotGate found (by simp))
      obtain ⟨stands, sameScope⟩ := standsList.of_mem_parameterBindings inList notGate
      refine ⟨gate, houses.opens, stands, by rw [sameScope]; exact houses.hardScope, Or.inr ?_⟩
      exact ⟨node, walks.mem_preorder, by simpa [isBlock] using blockKind, node.mem_preorder_self,
        by rw [sameScope]⟩
  | target isAssignment found isWord =>
      have standsNode : gate.StandsIn node :=
        houses.stands (by rcases isAssignment with isKind | isKind <;> rw [isKind] <;> rfl)
      exact ofRegion (.part standsNode (mem_children_of_child? found) notGate)
  | entry isAssignment found isList inList =>
      have standsNode : gate.StandsIn node :=
        houses.stands (by rcases isAssignment with isKind | isKind <;> rw [isKind] <;> rfl)
      have standsList := standsNode.part (mem_children_of_child? found) (by rw [isList]; rfl)
      exact ofRegion (.part standsList (mem_children_of_mem_identifiers inList).1 notGate)
  | exception isKind inNode =>
      have standsNode : gate.StandsIn node := houses.stands (by rw [isKind]; rfl)
      exact ofRegion (.part standsNode (mem_children_of_mem_identifiers inNode).1 notGate)
  | loop isKind found inPattern =>
      have standsNode : gate.StandsIn node := houses.stands (by rw [isKind]; rfl)
      have standsPattern :=
        standsNode.part (mem_children_of_child? found) (listNotGate found (by simp))
      unfold loopTargets at inPattern
      split at inPattern
      · cases List.mem_singleton.mp inPattern
        exact ofRegion standsPattern
      · exact ofRegion (.part standsPattern (mem_children_of_mem_identifiers inPattern).1 notGate)

/-- The nearest gate of a word that binds is the opened gate that its binding belongs to. -/
theorem OwnsBinding.eq_of_isGateOf
    {root gate other node word : SyntaxNode}
    {scope : LocalScope}
    (owns : root.OwnsBinding other node word scope)
    (nested : root.IsNestedBy IsApartFrom)
    (program : root.IsProgram)
    (gateOf : root.IsGateOf gate word) :
    other = gate := by
  obtain ⟨member, isGate⟩ := owns.opens.isScopeGate program
  exact gateOf.unique nested ⟨member, isGate, owns.stands, gateOf.isLeaf, gateOf.notGate⟩

end SyntaxNode

namespace Outline

/-- The locals of a source are what its walked nodes bind, in this order. -/
theorem map_locals
    (number : Nat)
    (source : Source) :
    (ofSource number source).locals.map Binding.ofPin? =
      source.root.surveyed.flatMap fun part =>
        (part.1.bindings part.2).map fun bound => some bound.2 :=
  (Survey.isListed_locals ⟨source.filename, number⟩).ofProgram source.root

/-- Every local of a source is bound by a word. -/
theorem exists_binds_of_mem_locals
    {number : Nat}
    {source : Source}
    {pin : Pin}
    (member : pin ∈ (ofSource number source).locals) :
    ∃ word, source.root.Binds word pin := by
  have listed := List.mem_map_of_mem (f := Binding.ofPin?) member
  rw [map_locals] at listed
  obtain ⟨⟨region, node⟩, entered, inNode⟩ := List.mem_flatMap.mp listed
  obtain ⟨⟨word, bound⟩, isBound, ofPin⟩ := List.mem_map.mp inNode
  exact ⟨word, .intro (SyntaxNode.mem_surveyed_iff.mp entered) isBound ofPin.symm⟩

/-- Everything that a walked node binds is a local of the source. -/
theorem exists_local_of_mem_bindings
    {source : Source}
    {region : Region}
    {node word : SyntaxNode}
    {bound : Binding}
    (number : Nat)
    (walks : source.root.Walks region node)
    (member : (word, bound) ∈ region.bindings node) :
    ∃ pin ∈ (ofSource number source).locals, Binding.ofPin? pin = some bound := by
  have listed : some bound ∈ (ofSource number source).locals.map Binding.ofPin? := by
    rw [map_locals]
    exact List.mem_flatMap.mpr ⟨(region, node), SyntaxNode.mem_surveyed_iff.mpr walks,
      List.mem_map_of_mem (f := fun bound : SyntaxNode × Binding => some bound.2) member⟩
  exact List.mem_map.mp listed

/-- A local is visible where it is present, declared, and bounded by the innermost hard scope. -/
theorem mem_localsAt_iff
    {outline : Outline}
    {pin : Pin}
    {bound : Binding}
    {position : Position}
    (ofPin : Binding.ofPin? pin = some bound) :
    pin ∈ outline.localsAt position ↔
      pin ∈ outline.locals ∧ bound.scope.presence.contains position = true ∧
        bound.scope.hardScope = outline.innermostHardScope position ∧
          bound.scope.visibleFrom ≤ position := by
  obtain ⟨scope, isLocal, rfl⟩ := Option.map_eq_some_iff.mp ofPin
  simp [localsAt, isLocal, LocalScope.isVisible, and_assoc]

/-- A local is visible at a leaf only if its gate is the innermost opened one around the leaf. -/
theorem isOpenedAround_of_innermostHardScope
    {source : Source}
    {gate nearest word leaf : SyntaxNode}
    (number : Nat)
    (nested : source.root.IsNestedBy SyntaxNode.IsApartFrom)
    (program : source.root.IsProgram)
    (opens : source.root.Opens gate)
    (wordGate : source.root.IsGateOf gate word)
    (leafGate : source.root.IsGateOf nearest leaf)
    (same : gate.span = (ofSource number source).innermostHardScope leaf.span.start) :
    source.root.IsOpenedAround gate leaf where
  opens := opens
  around := by
    have inRoot := nested.contains_of_mem leafGate.leaf_mem (nested.contains_start leafGate.leaf_mem)
    obtain ⟨contains, -, -⟩ := innermostHardScope_spec number .program inRoot
    rw [← same] at contains
    exact leafGate.mem_preorder_of_contains nested wordGate.member wordGate.isGate contains
  innermost other below otherOpens inOther := by
    obtain ⟨otherMember, otherIsGate⟩ := otherOpens.isScopeGate program
    have contains := nested.contains_start_of_mem otherMember inOther
    obtain ⟨-, -, notInside⟩ := innermostHardScope_spec number otherOpens contains
    rw [← same] at notInside
    -- The two gates have one span, so that the word stands in the inner one as well.
    have sameSpan :=
      Span.eq_of_not_isInside ((nested.of_mem wordGate.member).encloses below) notInside
    have inGate := nested.contains_start_of_mem wordGate.member wordGate.stands.mem_preorder
    rw [← sameSpan] at inGate
    exact wordGate.eq_of_mem_preorder nested below otherIsGate inGate

/--
A local that one gate binds is visible at an identifier of another gate exactly if the survey skips
that gate, and all gates from there up to the one that binds the local, and the local is present and
declared at the identifier.
-/
theorem mem_localsAt_iff_of_gate_ne
    {source : Source}
    {gate other word identifier : SyntaxNode}
    {pin : Pin}
    {scope : LocalScope}
    (number : Nat)
    (nested : source.root.IsNestedBy SyntaxNode.IsApartFrom)
    (program : source.root.IsProgram)
    (binds : source.root.Binds word pin)
    (isLocal : pin.localScope? = some scope)
    (wordGate : source.root.IsGateOf gate word)
    (identifierGate : source.root.IsGateOf other identifier)
    (different : other ≠ gate) :
    pin ∈ (ofSource number source).localsAt identifier.span.start ↔
      ¬ source.root.Opens other ∧ source.root.IsOpenedAround gate identifier ∧
        pin ∈ (ofSource number source).locals ∧
        scope.presence.contains identifier.span.start = true ∧
        scope.visibleFrom ≤ identifier.span.start := by
  obtain ⟨walks, member, ofPin⟩ := binds
  obtain ⟨owner, owns⟩ := walks.exists_ownsBinding program member wordGate.notGate
  obtain rfl := owns.eq_of_isGateOf nested program wordGate
  rw [mem_localsAt_iff ofPin, owns.hardScope]
  obtain ⟨_, sameScope, rfl⟩ := Option.map_eq_some_iff.mp ofPin
  cases isLocal.symm.trans sameScope
  constructor
  · rintro ⟨isPin, present, same, declared⟩
    have opened := isOpenedAround_of_innermostHardScope number nested program owns.opens wordGate
      identifierGate same
    refine ⟨fun opens => ?_, opened, isPin, present, declared⟩
    -- An opened gate of the identifier would be between it and the gate of the local.
    have inOther := identifierGate.stands.mem_preorder
    have contains := nested.contains_start_of_mem wordGate.member opened.around
    have below := identifierGate.mem_preorder nested wordGate.member wordGate.isGate contains
    exact different (opened.innermost other below opens inOther)
  · rintro ⟨-, opened, isPin, present, declared⟩
    have same := innermostHardScope_eq number nested program identifierGate opened
    exact ⟨isPin, present, same.symm, declared⟩

end Outline

namespace SkippedMethod

open Stub.Layout

/-- The name that the assignment `x = 1` binds. -/
def word : SyntaxNode :=
  leaf .identifier (some .left) ⟨0, 0⟩ "x"

/-- The value of the assignment. -/
def value : SyntaxNode :=
  leaf .integer (some .right) ⟨0, 4⟩ "1"

/-- The assignment. -/
def assignment : SyntaxNode :=
  branch .assignment none ⟨0, 0⟩ ⟨0, 5⟩ [word, value]

/-- The name in the body of the method. -/
def use : SyntaxNode :=
  leaf .identifier none ⟨2, 2⟩ "x"

/-- The method `obj.m`. -/
def definition : SyntaxNode :=
  branch .singletonMethod none ⟨1, 0⟩ ⟨3, 3⟩
    [leaf .identifier (some .object) ⟨1, 4⟩ "obj", leaf .identifier (some .name) ⟨1, 8⟩ "m", use]

/-- An assignment, and a method of an object. -/
def source : Source where
  filename := "task.rb"
  root := branch .program none ⟨0, 0⟩ ⟨4, 0⟩ [assignment, definition]
  isParsed := true

/-- The scope of the local. -/
def scope : LocalScope :=
  ⟨source.root.span, source.root.span, ⟨0, 5⟩⟩

/-- The local that the assignment binds. -/
def pin : Pin :=
  .declare ⟨1, 1⟩ "x" "x" .root ⟨"task.rb", assignment.span⟩ none
    (.localVariable (some value) scope)

theorem binds : source.root.Binds word pin :=
  .intro (.statement List.mem_cons_self) (List.mem_singleton.mpr rfl) rfl

theorem isNestedBy : source.root.IsNestedBy SyntaxNode.EndsBefore := by
  decide

theorem isProgram : source.root.IsProgram :=
  ⟨rfl, by decide, by decide⟩

/-- The program is the gate of the local. -/
theorem isGateOf_word : source.root.IsGateOf source.root word where
  member := SyntaxNode.mem_preorder_self _
  isGate := rfl
  stands := .part (.part .itself List.mem_cons_self rfl) List.mem_cons_self rfl
  isLeaf := rfl
  notGate := rfl

/-- The method is the gate of the use. -/
theorem isGateOf_use : source.root.IsGateOf definition use where
  member :=
    SyntaxNode.mem_preorder_of_mem_children (List.mem_cons_of_mem _ List.mem_cons_self)
      (SyntaxNode.mem_preorder_self _)
  isGate := rfl
  stands := .part .itself (List.mem_cons_of_mem _ (List.mem_cons_of_mem _ List.mem_cons_self)) rfl
  isLeaf := rfl
  notGate := rfl

theorem localsAt_use : (Outline.ofSource 1 source).localsAt use.span.start = [pin] := by
  rfl

/-- The survey skips the method, and its body sees the local of the program. -/
theorem not_opens_definition :
    ¬ source.root.Opens definition ∧ source.root.IsOpenedAround source.root use ∧
      pin ∈ (Outline.ofSource 1 source).locals ∧
      scope.presence.contains use.span.start = true ∧ scope.visibleFrom ≤ use.span.start :=
  (Outline.mem_localsAt_iff_of_gate_ne 1
    (isNestedBy.mono fun _ _ before => before.isApartFrom) isProgram binds rfl isGateOf_word
    isGateOf_use (fun same => absurd (congrArg SyntaxNode.kind same) (by decide))).mp
      (localsAt_use ▸ List.mem_singleton.mpr rfl)

/-- A local crosses the gate of a method of an object. -/
theorem mem_localsAt_of_gate_ne :
    ¬∀ (number : Nat) (source : Source) (gate other word identifier : SyntaxNode) (pin : Pin),
      source.root.IsNestedBy SyntaxNode.EndsBefore → source.root.IsProgram →
        source.root.Binds word pin → source.root.IsGateOf gate word →
          identifier.kind = .identifier → source.root.IsGateOf other identifier →
            other ≠ gate →
              pin ∉ (Outline.ofSource number source).localsAt identifier.span.start := by
  intro neverCrosses
  refine neverCrosses 1 source source.root definition word use pin isNestedBy isProgram binds
    isGateOf_word rfl isGateOf_use ?_ ?_
  · intro same
    exact absurd (congrArg SyntaxNode.kind same) (by decide)
  · rw [localsAt_use]
    exact List.mem_singleton.mpr rfl

end SkippedMethod

end TagCheck
