import TagCheck.Proofs.Outline.Homes

namespace TagCheck

/-!
# The top level of a program

A position sees the top level if its context is the program's own pin and its locals are those that
are bound outside of all definitions and blocks.  Spans include their ends, so that a position right
behind a definition or a block is still inside of it.
-/

/-- A span that is enclosed is the same span exactly if it is not inside. -/
theorem Span.isInside_eq_false_iff
    {inner outer : Span}
    (encloses : outer.encloses inner = true) :
    inner.isInside outer = false ↔ inner = outer := by
  constructor
  · exact eq_of_not_isInside encloses
  · rintro rfl
    simp [isInside]

/-- The first item is the innermost one exactly if no later item is inside of it. -/
theorem getD_innermost?_cons_eq_iff
    (span : α → Span)
    (item : α)
    (rest : List α) :
    (innermost? span (item :: rest)).getD item = item ↔
      ∀ other ∈ rest, (span other).isInside (span item) = false := by
  constructor
  · intro isFirst other isOther
    cases found : innermost? span (item :: rest) with
    | none =>
        cases innermost?_eq_none_iff.mp found
    | some best =>
        rw [found, Option.getD_some] at isFirst
        rw [← isFirst]
        exact (innermost?_spec found).2 other (List.mem_cons_of_mem _ isOther)
  · intro noneInside
    unfold innermost?
    cases foundInRest : innermost? span rest with
    | none =>
        rfl
    | some best =>
        have isInRest := (innermost?_spec foundInRest).1
        simp [noneInside best isInRest]

/-- A local is bound outside of all definitions and blocks of the program. -/
def SyntaxNode.BindsAtTop (root : SyntaxNode) (pin : Pin) : Prop :=
  root.BindsIn root root pin

namespace Outline

open SyntaxNode

/-- The named definitions of a source are the pins that code can be inside of. -/
theorem exists_isEnclosing_iff
    {source : Source}
    {span : Span}
    (number : Nat) :
    (∃ pin ∈ (ofSource number source).declarations, isEnclosing pin = true ∧
        pin.location.span = span) ↔
      ∃ region inner node, source.root.Walks region node ∧ region.bodyOf? node = some inner ∧
        node.kind ≠ .singletonClass ∧ node.span = span := by
  have declared : (ofSource number source).declarations.filterMap Frame.ofPin? =
      source.root.surveyed.flatMap fun part => part.1.frames part.2 :=
    (Survey.isListed_frames ⟨source.filename, number⟩).ofProgram source.root
  constructor
  · rintro ⟨pin, isDeclared, encloses, rfl⟩
    have isFrame : (⟨pin.location.span, pin.innerClosure⟩ : Frame) ∈
        (ofSource number source).declarations.filterMap Frame.ofPin? :=
      List.mem_filterMap.mpr ⟨pin, isDeclared, by simp [Frame.ofPin?, encloses]⟩
    rw [declared] at isFrame
    obtain ⟨⟨region, node⟩, entered, ofNode⟩ := List.mem_flatMap.mp isFrame
    obtain ⟨sameSpan, named, inner, opened⟩ := Region.of_mem_frames ofNode
    exact ⟨region, inner, node, mem_surveyed_iff.mp entered, opened, named, sameSpan.symm⟩
  · rintro ⟨region, inner, node, walks, opened, named, rfl⟩
    have isFrame : (⟨node.span, inner.closure.orRoot⟩ : Frame) ∈
        (ofSource number source).declarations.filterMap Frame.ofPin? := by
      rw [declared]
      refine List.mem_flatMap.mpr ⟨(region, node), mem_surveyed_iff.mpr walks, ?_⟩
      simp [Region.frames, named, opened]
    obtain ⟨pin, isDeclared, ofPin⟩ := List.mem_filterMap.mp isFrame
    unfold Frame.ofPin? at ofPin
    split at ofPin
    · next encloses =>
        exact ⟨pin, isDeclared, encloses, congrArg Frame.span (Option.some.inj ofPin)⟩
    · cases ofPin

/-- The declarations that code at a position is inside of. -/
def enclosingAt (outline : Outline) (position : Position) : List Pin :=
  outline.declarations.filter fun pin =>
    isEnclosing pin && pin.location.span.contains position

theorem mem_enclosingAt_iff
    {outline : Outline}
    {position : Position}
    {pin : Pin} :
    pin ∈ outline.enclosingAt position ↔
      pin ∈ outline.declarations ∧ isEnclosing pin = true ∧
        pin.location.span.contains position = true := by
  rw [enclosingAt, List.mem_filter, Bool.and_eq_true]

/-- The program's own pin stands in front of the declarations around a position of the program. -/
theorem filter_pins_eq
    (number : Nat)
    (source : Source)
    (position : Position) :
    (ofSource number source).pins.filter (fun pin =>
        isEnclosing pin && pin.location.span.contains position) =
      if source.root.span.contains position = true then
        (ofSource number source).rootPin :: (ofSource number source).enclosingAt position
      else
        (ofSource number source).enclosingAt position :=
  List.filter_cons

/-- Where no declaration is around, the program's own pin is the context. -/
theorem closureAt_of_enclosingAt_eq_nil
    {source : Source}
    {position : Position}
    {number : Nat}
    (noneAround : (ofSource number source).enclosingAt position = []) :
    (ofSource number source).closureAt position = (ofSource number source).rootPin := by
  unfold closureAt
  rw [filter_pins_eq, noneAround]
  split
  · rfl
  · rfl

/-- A position is outside of all named definitions but those that have the span of the program. -/
def IsOutsideOfDefinitions (root : SyntaxNode) (position : Position) : Prop :=
  ∀ region inner node, root.Walks region node → region.bodyOf? node = some inner →
    node.kind ≠ .singletonClass → node.span.contains position = true → node.span = root.span

/-- A position is outside of definitions exactly if it is outside of the pins that declare them. -/
theorem isOutsideOfDefinitions_iff
    {source : Source}
    {position : Position}
    (number : Nat) :
    IsOutsideOfDefinitions source.root position ↔
      ∀ pin ∈ (ofSource number source).enclosingAt position,
        pin.location.span = source.root.span := by
  constructor
  · intro isOutside pin isAround
    obtain ⟨isDeclared, encloses, around⟩ := mem_enclosingAt_iff.mp isAround
    obtain ⟨region, inner, node, walks, opened, named, sameSpan⟩ :=
      (exists_isEnclosing_iff number).mp ⟨pin, isDeclared, encloses, rfl⟩
    rw [← sameSpan] at around ⊢
    exact isOutside region inner node walks opened named around
  · intro ofPins region inner node walks opened named around
    obtain ⟨pin, isDeclared, encloses, sameSpan⟩ :=
      (exists_isEnclosing_iff number).mpr ⟨region, inner, node, walks, opened, named, rfl⟩
    rw [← sameSpan] at around ⊢
    exact ofPins pin (mem_enclosingAt_iff.mpr ⟨isDeclared, encloses, around⟩)

/-- What encloses a position is enclosed in the program. -/
theorem encloses_of_mem_enclosingAt
    {source : Source}
    {position : Position}
    {pin : Pin}
    {precedes : SyntaxNode → SyntaxNode → Prop}
    {number : Nat}
    (nested : source.root.IsNestedBy precedes)
    (isAround : pin ∈ (ofSource number source).enclosingAt position) :
    source.root.span.encloses pin.location.span = true := by
  obtain ⟨isDeclared, encloses, -⟩ := mem_enclosingAt_iff.mp isAround
  obtain ⟨region, inner, node, walks, -, -, sameSpan⟩ :=
    (exists_isEnclosing_iff number).mp ⟨pin, isDeclared, encloses, rfl⟩
  rw [← sameSpan]
  exact nested.encloses walks.mem_preorder

/--
The context at a position is the program's own pin exactly if the position is outside of all named
definitions, but for those with the span of the program: of pins with one span the first is found.
-/
theorem closureAt_eq_rootPin_iff
    {source : Source}
    {position : Position}
    {precedes : SyntaxNode → SyntaxNode → Prop}
    (number : Nat)
    (nested : source.root.IsNestedBy precedes) :
    (ofSource number source).closureAt position = (ofSource number source).rootPin ↔
      IsOutsideOfDefinitions source.root position := by
  rw [isOutsideOfDefinitions_iff number]
  by_cases inRoot : source.root.span.contains position = true
  · unfold closureAt
    rw [filter_pins_eq, if_pos inRoot, getD_innermost?_cons_eq_iff]
    refine forall₂_congr fun pin isAround => ?_
    exact Span.isInside_eq_false_iff (encloses_of_mem_enclosingAt nested isAround)
  · -- Nothing in the program is around a position outside of it.
    have noneAround : (ofSource number source).enclosingAt position = [] := by
      refine List.eq_nil_iff_forall_not_mem.mpr fun pin isAround => inRoot ?_
      have contains := (mem_enclosingAt_iff.mp isAround).2.2
      exact Span.contains_of_encloses (encloses_of_mem_enclosingAt nested isAround) contains
    rw [closureAt_of_enclosingAt_eq_nil noneAround, noneAround]
    exact ⟨fun _ => List.forall_mem_nil _, fun _ => rfl⟩

open Classical in
/-- The locals of the top level that are visible by a position, in the order of declaration. -/
noncomputable def topLocalsAt (outline : Outline) (position : Position) : List Pin :=
  outline.locals.filter fun pin =>
    outline.source.root.BindsAtTop pin ∧ pin.visibleFrom ≤ position

theorem mem_topLocalsAt_iff
    {outline : Outline}
    {position : Position}
    {pin : Pin} :
    pin ∈ outline.topLocalsAt position ↔
      pin ∈ outline.locals ∧ outline.source.root.BindsAtTop pin ∧ pin.visibleFrom ≤ position := by
  simp only [topLocalsAt, List.mem_filter, decide_eq_true_eq]

/-- All locals of the top level that have become visible are picked. -/
theorem topLocalsAt_eq_locals
    {outline : Outline}
    {position : Position}
    (atTop : ∀ pin ∈ outline.locals, outline.source.root.BindsAtTop pin)
    (visible : ∀ pin ∈ outline.locals, pin.visibleFrom ≤ position) :
    outline.topLocalsAt position = outline.locals := by
  simp only [topLocalsAt, List.filter_eq_self, decide_eq_true_eq]
  exact fun pin isLocal => ⟨atTop pin isLocal, visible pin isLocal⟩

/-- The locals at a position are picked from all locals, and so are those of the top level. -/
theorem localsAt_eq_topLocalsAt_iff
    {outline : Outline}
    {position : Position} :
    outline.localsAt position = outline.topLocalsAt position ↔
      ∀ pin, pin ∈ outline.localsAt position ↔ pin ∈ outline.topLocalsAt position := by
  constructor
  · intro same pin
    rw [same]
  · intro sameMembers
    refine List.filter_congr fun pin isLocal => ?_
    have picked := sameMembers pin
    rw [localsAt, topLocalsAt, List.mem_filter, List.mem_filter, and_congr_right_iff] at picked
    exact Bool.eq_iff_iff.mpr (picked isLocal)

/-- A position sees the top level: its context is the program, and its locals are at the top. -/
structure SeesTopLevel (outline : Outline) (position : Position) : Prop where
  context : outline.closureAt position = outline.rootPin
  locals : outline.localsAt position = outline.topLocalsAt position

/--
What is around a position leaves the top level to be seen there: no named definition is the context,
no gate hides a local of the top level, and gates hide all locals whose home the position is in.
-/
structure LeavesTopLevel (outline : Outline) (position : Position) : Prop where
  definitions : IsOutsideOfDefinitions outline.source.root position
  shown : ∀ pin ∈ outline.locals, outline.source.root.BindsAtTop pin → pin.visibleFrom ≤ position →
    outline.source.root.span.contains position = true ∧
      ∀ gate, outline.source.root.Opens gate → gate.span.contains position = true →
        gate.span = outline.source.root.span
  hidden : ∀ pin ∈ outline.locals, ¬ outline.source.root.BindsAtTop pin →
    pin.visibleFrom ≤ position →
      ∀ home gate, outline.source.root.BindsIn home gate pin → home.span.contains position = true →
        ∃ other, outline.source.root.Opens other ∧ other.span.contains position = true ∧
          other.span.isInside gate.span = true

/-- A position in the program behind all blocks and scope gates leaves the top level. -/
theorem leavesTopLevel_of_forall_not_contains
    {source : Source}
    {position : Position}
    (number : Nat)
    (inRoot : source.root.span.contains position = true)
    (notAround : ∀ statement ∈ source.root.children, ∀ node ∈ statement.preorder,
      (node.isBlock || node.kind.isScopeGate) = true → node.span.contains position = false) :
    (ofSource number source).LeavesTopLevel position := by
  have notOpened : ∀ {region inner : Region} {node : SyntaxNode}, source.root.Walks region node →
      region.bodyOf? node = some inner → ¬ node.span.contains position = true := by
    intro region inner node walks opened around
    obtain ⟨statement, isStatement, below⟩ := walks.exists_child
    have isGate : (node.isBlock || node.kind.isScopeGate) = true := by
      rw [(Region.of_bodyOf? opened).1, Bool.or_true]
    rw [notAround statement isStatement node below isGate] at around
    cases around
  refine ⟨?definitions, ?shown, ?hidden⟩
  case definitions =>
    intro region inner node walks opened _ around
    exact absurd around (notOpened walks opened)
  case shown =>
    intro pin _ _ _
    refine ⟨inRoot, fun gate opens around => ?_⟩
    cases opens with
    | program =>
        rfl
    | definition walks opened =>
        exact absurd around (notOpened walks opened)
  case hidden =>
    intro pin _ notAtTop _ home gate binds atHome
    rcases binds.isHome.topOrBelow with ⟨rfl, rfl⟩ | ⟨statement, isStatement, below, isKind⟩
    · exact absurd binds notAtTop
    · rw [notAround statement isStatement home below isKind] at atHome
      cases atHome

/-- Exactly at these positions the top level is seen. -/
theorem seesTopLevel_iff
    {source : Source}
    {position : Position}
    {precedes : SyntaxNode → SyntaxNode → Prop}
    (number : Nat)
    (nested : source.root.IsNestedBy precedes) :
    (ofSource number source).SeesTopLevel position ↔
      (ofSource number source).LeavesTopLevel position := by
  have sameSpan_iff : ∀ {gate : SyntaxNode}, source.root.Opens gate →
      (gate.span.isInside source.root.span = false ↔ gate.span = source.root.span) :=
    fun opens => Span.isInside_eq_false_iff (nested.encloses opens.mem_preorder)
  constructor
  · rintro ⟨context, locals⟩
    refine ⟨(closureAt_eq_rootPin_iff number nested).mp context, ?shown, ?hidden⟩
    case shown =>
      intro pin isLocal atTop visible
      have seen : pin ∈ (ofSource number source).localsAt position := by
        rw [locals]
        exact mem_topLocalsAt_iff.mpr ⟨isLocal, atTop, visible⟩
      obtain ⟨-, inRoot, -, noneInside⟩ := (mem_localsAt_iff_of_bindsIn number nested atTop).mp seen
      refine ⟨inRoot, fun gate opens around => ?_⟩
      exact (sameSpan_iff opens).mp (noneInside gate opens around)
    case hidden =>
      intro pin isLocal notAtTop visible home gate binds atHome
      by_contra noneInside
      apply notAtTop
      have seen : pin ∈ (ofSource number source).localsAt position := by
        refine (mem_localsAt_iff_of_bindsIn number nested binds).mpr ⟨isLocal, atHome, visible, ?_⟩
        intro other opens around
        by_contra isInside
        exact noneInside ⟨other, opens, around, Bool.not_eq_false _ ▸ isInside⟩
      rw [locals] at seen
      exact (mem_topLocalsAt_iff.mp seen).2.1
  · rintro ⟨definitions, shown, hidden⟩
    refine ⟨(closureAt_eq_rootPin_iff number nested).mpr definitions,
      localsAt_eq_topLocalsAt_iff.mpr fun pin => ⟨?_, ?_⟩⟩
    · intro seen
      obtain ⟨home, gate, binds⟩ := exists_bindsIn_of_mem_locals (List.mem_filter.mp seen).1
      obtain ⟨isLocal, atHome, visible, noneInside⟩ :=
        (mem_localsAt_iff_of_bindsIn number nested binds).mp seen
      refine mem_topLocalsAt_iff.mpr ⟨isLocal, ?_, visible⟩
      by_contra notAtTop
      obtain ⟨other, opens, around, isInside⟩ :=
        hidden pin isLocal notAtTop visible home gate binds atHome
      rw [noneInside other opens around] at isInside
      cases isInside
    · intro atTopLevel
      obtain ⟨isLocal, atTop, visible⟩ := mem_topLocalsAt_iff.mp atTopLevel
      obtain ⟨inRoot, sameSpan⟩ := shown pin isLocal atTop visible
      refine (mem_localsAt_iff_of_bindsIn number nested atTop).mpr ⟨isLocal, inRoot, visible, ?_⟩
      intro gate opens around
      exact (sameSpan_iff opens).mpr (sameSpan gate opens around)

end Outline

end TagCheck
