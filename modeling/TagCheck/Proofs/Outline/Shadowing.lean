import TagCheck.Inference.Resolver
import TagCheck.Proofs.Outline.Locals

namespace TagCheck

/-!
# Which declaration a word refers to

A bare word refers to the last visible local of its name, in the order in which a survey finds them.
A survey finds an assignment before it walks the assigned value, but the variable becomes visible
behind the value only.  So the order of the locals is the order in which they become visible, but for
those that are bound inside a value: these are found later and visible earlier than the variable that
the value is assigned to.
-/

/-- The position from which a local is visible. -/
def PinOf.visibleFrom (pin : Pin) : Position :=
  match pin.localScope? with
  | some scope => scope.visibleFrom
  | none => pin.location.span.start

namespace Outline

/-- The local that a bare word refers to at a position. -/
def findLocal? (outline : Outline) (position : Position) (name : String) : Option Pin :=
  (outline.localsAt position).reverse.find? (·.name = name)

end Outline

namespace Binding

/-- The local becomes visible inside a span, and its binder stands there. -/
structure IsWithin (bound : Binding) (span : Span) : Prop where
  start_le : span.start ≤ bound.scope.visibleFrom
  le_stop : bound.scope.visibleFrom ≤ span.stop
  encloses : span.encloses bound.span = true
  le_binder : bound.scope.visibleFrom ≤ bound.span.stop

/-- The local becomes visible at or before another one, or the other one is bound in its value. -/
def IsNotBehind (bound other : Binding) : Prop :=
  bound.scope.visibleFrom ≤ other.scope.visibleFrom ∨
    ∃ value, bound.value = some value ∧ value.span.encloses other.span = true

theorem IsWithin.mono
    {bound : Binding}
    {span outer : Span}
    (within : bound.IsWithin span)
    (encloses : outer.encloses span = true) :
    bound.IsWithin outer where
  start_le := (Span.encloses_iff.mp encloses).1.trans within.start_le
  le_stop := within.le_stop.trans (Span.encloses_iff.mp encloses).2
  encloses := by
    have inner := Span.encloses_iff.mp within.encloses
    have around := Span.encloses_iff.mp encloses
    exact Span.encloses_iff.mpr ⟨around.1.trans inner.1, inner.2.trans around.2⟩
  le_binder := within.le_binder

/-- What is bound in a span is visible before what is bound in a span behind it. -/
theorem IsWithin.isNotBehind
    {bound other : Binding}
    {span behind : Span}
    (within : bound.IsWithin span)
    (otherWithin : other.IsWithin behind)
    (ordered : span.stop ≤ behind.start) :
    bound.IsNotBehind other :=
  Or.inl ((within.le_stop.trans ordered).trans otherWithin.start_le)

end Binding

namespace SyntaxNode

/-- Targets stand in front of what they are bound to: left sides, and the patterns of loops. -/
structure HasTargetsFirst (root : SyntaxNode) : Prop where
  sides : ∀ node ∈ root.preorder, ∀ left ∈ node.child? .left, ∀ right ∈ node.child? .right,
    left.EndsBy right
  loop : ∀ node ∈ root.preorder, node.kind = .other "for" → ∀ pattern ∈ node.child? .pattern,
    ∀ child ∈ node.children, child.field ≠ some .pattern → pattern.EndsBy child

theorem HasTargetsFirst.of_mem
    {root node : SyntaxNode}
    (targetsFirst : root.HasTargetsFirst)
    (member : node ∈ root.preorder) :
    node.HasTargetsFirst where
  sides part below := targetsFirst.sides part (mem_preorder_trans member below)
  loop part below := targetsFirst.loop part (mem_preorder_trans member below)

/-- Parameters stand in their list. -/
theorem mem_preorder_of_mem_boundParameters
    {list entry parameter : SyntaxNode}
    {name : String}
    {kind : ParameterKind}
    (isEntry : entry ∈ list.children)
    (member : (name, kind, parameter) ∈ entry.boundParameters) :
    parameter ∈ list.preorder := by
  refine mem_preorder_of_mem_children isEntry ?_
  rcases (of_mem_boundParameters member).2 with rfl | ⟨isChild, -⟩
  · exact parameter.mem_preorder_self
  · exact mem_preorder_of_mem_children isChild parameter.mem_preorder_self

/-- Parameters have no value, and are visible from the start of what they are parameters of. -/
theorem of_mem_parameterBindings
    {owner list word : SyntaxNode}
    {hardScope : Span}
    {bound : Binding}
    (nested : owner.IsNestedBy EndsBy)
    (isList : list ∈ owner.children)
    (member : (word, bound) ∈ list.parameterBindings owner.span hardScope) :
    bound.scope.visibleFrom = owner.span.start ∧ bound.IsWithin owner.span ∧
      bound.value = none := by
  obtain ⟨entry, isEntry, inEntry⟩ := List.mem_flatMap.mp member
  obtain ⟨⟨name, kind, parameter⟩, isBound, same⟩ := List.mem_map.mp inEntry
  cases same
  have below : parameter ∈ owner.preorder :=
    mem_preorder_of_mem_children isList (mem_preorder_of_mem_boundParameters isEntry isBound)
  have around := Span.encloses_iff.mp (nested.encloses below)
  have within :
      (Binding.mk name parameter.span ⟨owner.span, hardScope, owner.span.start⟩ none).IsWithin
        owner.span :=
    ⟨le_rfl, nested.start_le_stop owner owner.mem_preorder_self, Span.encloses_iff.mpr around,
      around.1.trans (nested.start_le_stop parameter below)⟩
  exact ⟨rfl, within, rfl⟩

end SyntaxNode

namespace Region

open SyntaxNode

/-- What a word binds becomes visible where its binder stops. -/
theorem bindingAt_isWithin
    {region : Region}
    {node word binder : SyntaxNode}
    {value : Option SyntaxNode}
    (nested : node.IsNestedBy EndsBy)
    (below : binder ∈ node.preorder) :
    (region.bindingAt word binder value).2.IsWithin node.span := by
  have around := Span.encloses_iff.mp (nested.encloses below)
  exact ⟨around.1.trans (nested.start_le_stop binder below), around.2,
    Span.encloses_iff.mpr around, le_rfl⟩

/-- What a node binds becomes visible inside the node. -/
theorem isWithin_of_mem_bindings
    {region : Region}
    {node word : SyntaxNode}
    {bound : Binding}
    (nested : node.IsNestedBy EndsBy)
    (member : (word, bound) ∈ region.bindings node) :
    bound.IsWithin node.span := by
  cases mem_bindings_iff.mp member with
  | methodParameter _ _ found inList | blockParameter _ found inList =>
      exact (of_mem_parameterBindings nested (mem_children_of_child? found) inList).2.1
  | target _ _ _ =>
      exact bindingAt_isWithin nested node.mem_preorder_self
  | entry _ found _ inList =>
      exact bindingAt_isWithin nested
        (mem_preorder_trans (mem_preorder_of_child? found) (mem_preorder_of_mem_identifiers inList))
  | exception _ _ =>
      exact bindingAt_isWithin nested node.mem_preorder_self
  | loop _ found _ =>
      exact bindingAt_isWithin nested (mem_preorder_of_child? found)

/-- A value ends where its variable becomes visible, or before. -/
theorem stop_le_of_mem_bindings
    {region : Region}
    {node word value : SyntaxNode}
    {bound : Binding}
    (nested : node.IsNestedBy EndsBy)
    (member : (word, bound) ∈ region.bindings node)
    (isValue : bound.value = some value) :
    value.span.stop ≤ bound.scope.visibleFrom := by
  cases mem_bindings_iff.mp member with
  | methodParameter _ _ found inList | blockParameter _ found inList =>
      have noValue := (of_mem_parameterBindings nested (mem_children_of_child? found) inList).2.2
      rw [noValue] at isValue
      cases isValue
  | target _ _ _ =>
      have isChild : value ∈ node.children := mem_children_of_child? isValue
      have inNode := nested.encloses_child node node.mem_preorder_self value isChild
      exact (Span.encloses_iff.mp inNode).2
  | entry _ _ _ _ | exception _ _ | loop _ _ _ =>
      cases isValue

/-- What the walk over a node binds becomes visible inside the node. -/
theorem isWithin_of_mem_walk
    {region : Region}
    {node word : SyntaxNode}
    {bound : Binding}
    (nested : node.IsNestedBy EndsBy)
    (member : (word, bound) ∈ (region.walk node).flatMap fun part => part.1.bindings part.2) :
    bound.IsWithin node.span := by
  obtain ⟨part, entered, inPart⟩ := List.mem_flatMap.mp member
  have below := mem_preorder_of_mem_walk entered
  exact (isWithin_of_mem_bindings (nested.of_mem below) inPart).mono (nested.encloses below)

/-- Of what a node binds itself, nothing becomes visible before what is found earlier. -/
theorem pairwise_bindings
    {region : Region}
    {node : SyntaxNode}
    (nested : node.IsNestedBy EndsBy) :
    (region.bindings node).Pairwise fun bound other => bound.2.IsNotBehind other.2 := by
  have ofParameters : ∀ {hardScope : Span},
      ((node.child? .parameters).toList.flatMap
        (·.parameterBindings node.span hardScope)).Pairwise
          fun bound other => bound.2.IsNotBehind other.2 := by
    intro hardScope
    refine List.pairwise_of_forall_mem_list fun bound isBound other isOther => Or.inl (le_of_eq ?_)
    obtain ⟨list, found, inList⟩ := List.mem_flatMap.mp isBound
    obtain ⟨otherList, otherFound, inOtherList⟩ := List.mem_flatMap.mp isOther
    rw [(of_mem_parameterBindings nested
        (mem_children_of_child? (Option.mem_toList.mp found)) inList).1,
      (of_mem_parameterBindings nested
        (mem_children_of_child? (Option.mem_toList.mp otherFound)) inOtherList).1]
  -- Words with one binder become visible together.
  have ofBinder : ∀ {words : List SyntaxNode} {binder : SyntaxNode} {value : Option SyntaxNode},
      (words.map fun word => region.bindingAt word binder value).Pairwise
        fun bound other => bound.2.IsNotBehind other.2 := by
    intro words binder value
    rw [List.pairwise_map]
    exact List.pairwise_of_forall fun _ _ => Or.inl le_rfl
  unfold bindings
  dsimp only
  split
  case h_1 | h_2 =>
    split
    · exact ofParameters
    · exact List.Pairwise.nil
  case h_3 | h_4 =>
    cases found : node.child? .left with
    | none =>
        exact List.Pairwise.nil
    | some target =>
        rw [Option.toList_some, List.flatMap_singleton]
        unfold targetBindings
        split
        · exact List.pairwise_singleton _ _
        · -- The words of a list are visible one after the other.
          have isChild := mem_children_of_child? found
          have nestedTarget := nested.child isChild
          rw [List.pairwise_map]
          refine List.Pairwise.imp_of_mem ?_
            ((nestedTarget.pairwise target target.mem_preorder_self).sublist List.filter_sublist)
          intro word other isWord isOther before
          have ordered :=
            nestedTarget.start_le_stop other (mem_preorder_of_mem_identifiers isOther)
          exact Or.inl (le_trans before ordered)
        · exact List.Pairwise.nil
  case h_5 | h_6 =>
    exact ofParameters
  case h_7 =>
    exact ofBinder
  case h_8 =>
    cases node.child? .pattern with
    | none =>
        exact List.Pairwise.nil
    | some pattern =>
        rw [Option.toList_some, List.flatMap_singleton]
        exact ofBinder
  case h_9 =>
    exact List.Pairwise.nil

/-- If an assignment binds its target, then only its value is walked. -/
theorem eq_right_of_mem_walked
    {region : Region}
    {node target : SyntaxNode}
    {part : Region × SyntaxNode}
    (isAssignment : node.kind = .assignment ∨ node.kind = .operatorAssignment)
    (isTarget : node.child? .left = some target)
    (declared : Survey.isDeclaredTarget target.kind = true)
    (isWalked : part ∈ region.walked node) :
    node.child? .right = some part.2 := by
  have onlyValue : region.walked node = (node.child? .right).toList.map (region, ·) := by
    rcases isAssignment with isKind | isKind
    all_goals simp [walked, isKind, isTarget, declared]
  rw [onlyValue] at isWalked
  obtain ⟨value, isValue, rfl⟩ := List.mem_map.mp isWalked
  exact Option.mem_toList.mp isValue

/--
What a node binds itself is visible before what its walked parts bind, unless the part is the value
that the node assigns.
-/
theorem isNotBehind_of_mem_walked
    {region : Region}
    {node word : SyntaxNode}
    {bound other : Binding}
    {part : Region × SyntaxNode}
    (nested : node.IsNestedBy EndsBy)
    (targetsFirst : node.HasTargetsFirst)
    (member : (word, bound) ∈ region.bindings node)
    (isWalked : part ∈ region.walked node)
    (within : other.IsWithin part.2.span) :
    bound.IsNotBehind other := by
  cases mem_bindings_iff.mp member with
  | methodParameter _ _ found inList | blockParameter _ found inList =>
      -- Parameters are visible from the start of the node.
      have inNode := Span.encloses_iff.mp (nested.encloses (mem_preorder_of_mem_walked isWalked))
      have fromStart := (of_mem_parameterBindings nested (mem_children_of_child? found) inList).1
      exact Or.inl (fromStart.trans_le (inNode.1.trans within.start_le))
  | target isAssignment found isWord =>
      -- The value is assigned to the word.
      have isValue := eq_right_of_mem_walked isAssignment found (by rw [isWord]; rfl) isWalked
      exact Or.inr ⟨part.2, isValue, within.encloses⟩
  | entry isAssignment found isList inList =>
      -- The words stand in front of the value.
      have isValue := eq_right_of_mem_walked isAssignment found (by rw [isList]; rfl) isWalked
      have before := targetsFirst.sides node node.mem_preorder_self _ found _ isValue
      have inTarget := Span.encloses_iff.mp
        ((nested.child (mem_children_of_child? found)).encloses
          (mem_preorder_of_mem_identifiers inList))
      exact Or.inl ((inTarget.2.trans before).trans within.start_le)
  | exception isKind _ =>
      -- Nothing is walked below the variable of a rescue clause.
      unfold walked at isWalked
      rw [isKind] at isWalked
      cases isWalked
  | @loop pattern _ isKind found _ =>
      unfold walked at isWalked
      rw [isKind] at isWalked
      obtain ⟨child, isPart, rfl⟩ := List.mem_map.mp isWalked
      obtain ⟨isChild, notPattern⟩ := List.mem_filter.mp isPart
      have before := targetsFirst.loop node node.mem_preorder_self isKind pattern found child isChild
        (by simpa using notPattern)
      exact Or.inl (le_trans before within.start_le)

/-- Of what the walk over a node binds, what is found earlier is not behind. -/
theorem pairwise_walk
    {region : Region}
    {node : SyntaxNode}
    (nested : node.IsNestedBy EndsBy)
    (targetsFirst : node.HasTargetsFirst) :
    ((region.walk node).flatMap fun part => part.1.bindings part.2).Pairwise
      fun bound other => bound.2.IsNotBehind other.2 := by
  induction region, node using walkInduction with
  | step region node inductionHypothesis =>
      have inParts := pairwise_walked nested (fun _ _ => id)
        (fun left right isLeft isRight =>
          targetsFirst.sides node node.mem_preorder_self left isLeft right isRight) region
      rw [walk_eq, List.flatMap_cons, List.flatMap_assoc, List.pairwise_append, List.pairwise_flatMap]
      refine ⟨pairwise_bindings nested, ⟨?_, ?_⟩, ?_⟩
      · intro part isWalked
        have below := mem_preorder_of_mem_walked isWalked
        exact inductionHypothesis part isWalked (nested.of_mem below) (targetsFirst.of_mem below)
      · refine List.Pairwise.imp_of_mem ?_ inParts
        intro part otherPart isPart isOther before bound isBound other isOtherBound
        have within := isWithin_of_mem_walk (nested.of_mem (mem_preorder_of_mem_walked isPart)) isBound
        have otherWithin :=
          isWithin_of_mem_walk (nested.of_mem (mem_preorder_of_mem_walked isOther)) isOtherBound
        exact within.isNotBehind otherWithin before
      · intro bound isBound other isOther
        obtain ⟨part, isWalked, inPart⟩ := List.mem_flatMap.mp isOther
        have within :=
          isWithin_of_mem_walk (nested.of_mem (mem_preorder_of_mem_walked isWalked)) inPart
        exact isNotBehind_of_mem_walked nested targetsFirst isBound isWalked within

end Region

/-- Of what a program binds, what is found earlier is not behind. -/
theorem SyntaxNode.pairwise_surveyed
    {root : SyntaxNode}
    (nested : root.IsNestedBy EndsBy)
    (targetsFirst : root.HasTargetsFirst) :
    (root.surveyed.flatMap fun part => part.1.bindings part.2).Pairwise
      fun bound other => bound.2.IsNotBehind other.2 := by
  rw [surveyed, List.flatMap_assoc, List.pairwise_flatMap]
  constructor
  · intro statement isStatement
    have below := mem_preorder_of_mem_children isStatement statement.mem_preorder_self
    exact Region.pairwise_walk (nested.of_mem below) (targetsFirst.of_mem below)
  · refine List.Pairwise.imp_of_mem ?_ (nested.pairwise root root.mem_preorder_self)
    intro statement otherStatement isStatement isOther before bound isBound other isOtherBound
    exact (Region.isWithin_of_mem_walk (nested.child isStatement) isBound).isNotBehind
      (Region.isWithin_of_mem_walk (nested.child isOther) isOtherBound) before

namespace Outline

open SyntaxNode

/-- Of the locals of a source, what is found earlier is not behind. -/
theorem pairwise_locals
    {source : Source}
    (number : Nat)
    (nested : source.root.IsNestedBy EndsBy)
    (targetsFirst : source.root.HasTargetsFirst) :
    (ofSource number source).locals.Pairwise fun pin other =>
      ∀ bound otherBound, Binding.ofPin? pin = some bound → Binding.ofPin? other = some otherBound →
        bound.IsNotBehind otherBound := by
  have inOrder :
      ((ofSource number source).locals.map Binding.ofPin?).Pairwise fun pin other =>
        ∀ bound otherBound, pin = some bound → other = some otherBound →
          bound.IsNotBehind otherBound := by
    rw [map_locals, ← List.map_flatMap, List.pairwise_map]
    refine (pairwise_surveyed nested targetsFirst).imp ?_
    intro bound other notBehind _ _ same otherSame
    cases same
    cases otherSame
    exact notBehind
  exact List.pairwise_map.mp inOrder

/-- Every local is visible within its binder, and behind its value. -/
theorem exists_binding_of_mem_locals
    {source : Source}
    {pin : Pin}
    {number : Nat}
    (nested : source.root.IsNestedBy EndsBy)
    (member : pin ∈ (ofSource number source).locals) :
    ∃ bound, Binding.ofPin? pin = some bound ∧ pin.visibleFrom = bound.scope.visibleFrom ∧
      pin.visibleFrom ≤ pin.location.span.stop ∧
        ∀ value, pin.assignment? = some value → value.span.stop ≤ pin.visibleFrom := by
  obtain ⟨word, @⟨region, node, bound, walks, isBound, ofPin⟩⟩ := exists_binds_of_mem_locals member
  obtain ⟨scope, isLocal, rfl⟩ := Option.map_eq_some_iff.mp ofPin
  have sameVisible : pin.visibleFrom = scope.visibleFrom := by
    simp [PinOf.visibleFrom, isLocal]
  have nestedNode := nested.of_mem walks.mem_preorder
  refine ⟨_, ofPin, sameVisible, ?_, ?_⟩
  · rw [sameVisible]
    exact (Region.isWithin_of_mem_bindings nestedNode isBound).le_binder
  · intro value isValue
    rw [sameVisible]
    exact Region.stop_le_of_mem_bindings nestedNode isBound isValue

/-- Nothing is found behind the local that a word refers to. -/
theorem isNotBehind_of_findLocal?
    {source : Source}
    {position : Position}
    {name : String}
    {pin other : Pin}
    {bound otherBound : Binding}
    {number : Nat}
    (nested : source.root.IsNestedBy EndsBy)
    (targetsFirst : source.root.HasTargetsFirst)
    (found : (ofSource number source).findLocal? position name = some pin)
    (visible : other ∈ (ofSource number source).localsAt position)
    (sameName : other.name = name)
    (ofPin : Binding.ofPin? pin = some bound)
    (ofOther : Binding.ofPin? other = some otherBound) :
    otherBound.IsNotBehind bound := by
  obtain ⟨-, before, behind, parts, notBefore⟩ := List.find?_eq_some_iff_append.mp found
  have areLocals :
      ((ofSource number source).localsAt position).Sublist (ofSource number source).locals :=
    List.filter_sublist
  have inOrder := (pairwise_locals number nested targetsFirst).sublist areLocals
  have member := List.mem_reverse.mpr visible
  rw [← List.reverse_reverse ((ofSource number source).localsAt position),
    List.pairwise_reverse, parts] at inOrder
  rw [parts] at member
  rcases List.mem_append.mp member with isBefore | isFoundOrBehind
  · -- No local of the name is found behind the one that the word refers to.
    have notNamed := notBefore other isBefore
    simp [sameName] at notNamed
  · rcases List.mem_cons.mp isFoundOrBehind with rfl | isBehind
    · cases ofPin.symm.trans ofOther
      exact Or.inl le_rfl
    · have foundFirst := (List.pairwise_append.mp inOrder).2.1
      exact (List.pairwise_cons.mp foundFirst).1 other isBehind otherBound bound ofOther ofPin

/--
The local that a word refers to is the one of its name that became visible last, exactly if each
visible local of its name with a value that it is bound in becomes visible together with it.
-/
theorem forall_visibleFrom_le_iff
    {source : Source}
    {position : Position}
    {name : String}
    {pin : Pin}
    (number : Nat)
    (nested : source.root.IsNestedBy EndsBy)
    (targetsFirst : source.root.HasTargetsFirst)
    (found : (ofSource number source).findLocal? position name = some pin) :
    (∀ other ∈ (ofSource number source).localsAt position, other.name = name →
        other.visibleFrom ≤ pin.visibleFrom) ↔
      ∀ other ∈ (ofSource number source).localsAt position, other.name = name →
        ∀ value, other.assignment? = some value →
          value.span.encloses pin.location.span = true → other.visibleFrom = pin.visibleFrom := by
  have isLocal : ∀ {other : Pin}, other ∈ (ofSource number source).localsAt position →
      other ∈ (ofSource number source).locals :=
    fun visible => (List.mem_filter.mp visible).1
  have pinVisible : pin ∈ (ofSource number source).localsAt position :=
    List.mem_reverse.mp (List.mem_of_find?_eq_some found)
  obtain ⟨bound, ofPin, sameVisible, atBinder, -⟩ :=
    exists_binding_of_mem_locals nested (isLocal pinVisible)
  constructor
  · intro isLast other visible sameName value isValue encloses
    obtain ⟨_, -, -, -, behindValue⟩ := exists_binding_of_mem_locals nested (isLocal visible)
    have inValue := (Span.encloses_iff.mp encloses).2
    have notBefore := (atBinder.trans inValue).trans (behindValue value isValue)
    exact le_antisymm (isLast other visible sameName) notBefore
  · intro together other visible sameName
    obtain ⟨otherBound, ofOther, otherSame, -, -⟩ :=
      exists_binding_of_mem_locals nested (isLocal visible)
    rcases isNotBehind_of_findLocal? nested targetsFirst found visible sameName ofPin ofOther with
      before | ⟨value, isValue, encloses⟩
    · rw [sameVisible, otherSame]
      exact before
    · obtain ⟨_, -, rfl⟩ := Option.map_eq_some_iff.mp ofPin
      obtain ⟨_, -, rfl⟩ := Option.map_eq_some_iff.mp ofOther
      exact le_of_eq (together other visible sameName value isValue encloses)

end Outline

namespace NestedAssignment

open Stub.Layout

/-- The assignment `x = 'a'` in the value of the other one. -/
def inner : SyntaxNode :=
  branch .assignment none ⟨0, 5⟩ ⟨0, 12⟩
    [leaf .identifier (some .left) ⟨0, 5⟩ "x", leaf .string (some .right) ⟨0, 9⟩ "'a'"]

/-- The value that is assigned last. -/
def value : SyntaxNode :=
  branch .parenthesized (some .right) ⟨0, 4⟩ ⟨0, 16⟩ [inner, leaf .integer none ⟨0, 14⟩ "1"]

/-- The assignment `x = (x = 'a'; 1)`. -/
def outer : SyntaxNode :=
  branch .assignment none ⟨0, 0⟩ ⟨0, 16⟩ [leaf .identifier (some .left) ⟨0, 0⟩ "x", value]

/-- The assignments, and a word behind them. -/
def source : Source where
  filename := "x.rb"
  root := branch .program none ⟨0, 0⟩ ⟨2, 0⟩ [outer, leaf .identifier none ⟨1, 0⟩ "x"]
  isParsed := true

/-- The local that is found first. -/
def outerPin : Pin :=
  .declare ⟨1, 1⟩ "x" "x" .root ⟨"x.rb", outer.span⟩ none
    (.localVariable (some value) ⟨source.root.span, source.root.span, ⟨0, 16⟩⟩)

/-- The local that is visible first. -/
def innerPin : Pin :=
  .declare ⟨1, 2⟩ "x" "x" .root ⟨"x.rb", inner.span⟩ none
    (.localVariable (some (leaf .string (some .right) ⟨0, 9⟩ "'a'"))
      ⟨source.root.span, source.root.span, ⟨0, 12⟩⟩)

theorem localsAt_word : (Outline.ofSource 1 source).localsAt ⟨1, 0⟩ = [outerPin, innerPin] := by
  rfl

theorem localsAt_value : (Outline.ofSource 1 source).localsAt ⟨0, 14⟩ = [innerPin] := by
  rfl

/-- Inside the value only the inner variable is visible, and a word refers to it. -/
theorem visibleFrom_le_innerPin :
    (Outline.ofSource 1 source).findLocal? ⟨0, 14⟩ "x" = some innerPin ∧
      ∀ other ∈ (Outline.ofSource 1 source).localsAt ⟨0, 14⟩, other.name = "x" →
        other.visibleFrom ≤ innerPin.visibleFrom := by
  have found : (Outline.ofSource 1 source).findLocal? ⟨0, 14⟩ "x" = some innerPin := by
    rw [Outline.findLocal?, localsAt_value]
    rfl
  refine ⟨found, (Outline.forall_visibleFrom_le_iff 1 (by decide) ⟨by decide, by decide⟩ found).mpr
    ?_⟩
  rw [localsAt_value]
  intro other isOther _ _ _ _
  rw [List.mem_singleton.mp isOther]

/-- Behind both assignments a word refers to the inner variable, which was visible earlier. -/
theorem findLocal?_not_last :
    ¬∀ (number : Nat) (source : Source) (position : Position) (name : String) (pin : Pin),
      (Outline.ofSource number source).findLocal? position name = some pin →
        ∀ other ∈ (Outline.ofSource number source).localsAt position, other.name = name →
          other.visibleFrom ≤ pin.visibleFrom := by
  intro isLast
  have found : (Outline.ofSource 1 source).findLocal? ⟨1, 0⟩ "x" = some innerPin := by
    rw [Outline.findLocal?, localsAt_word]
    rfl
  have notLater := isLast 1 source ⟨1, 0⟩ "x" innerPin found outerPin
    (by rw [localsAt_word]; exact List.mem_cons_self) rfl
  exact absurd notLater (by decide)

end NestedAssignment

end TagCheck
