import TagCheck.Proofs.Check.Reports
import TagCheck.Proofs.Outline.Locals
import TagCheck.Proofs.Snapshot

namespace TagCheck

/-!
# Bound names are no calls

A word that names a visible local is not checked as a call.  The survey declares the parameters of
the methods that it opens, and the targets of the assignments that it walks: a word, or the direct
entries of a list.  It does not open a method of a constant, and it looks into no splat and no
parenthesis of a list, so that the names bound there are reported as calls.
-/

/-- Kinds of nodes that hold several targets of an assignment. -/
def NodeKind.isTargetList : NodeKind → Bool
  | .leftAssignmentList | .other "rest_assignment" | .other "destructured_left_assignment" => true
  | _ => false

namespace SyntaxNode

/-- The words that an assignment to a target binds, at any depth of its lists. -/
inductive AssignsTo : SyntaxNode → SyntaxNode → Prop
  | word {word : SyntaxNode} (isWord : word.kind = .identifier) : AssignsTo word word
  | part {list target word : SyntaxNode} (isList : list.kind.isTargetList = true)
      (member : target ∈ list.children) (assigns : AssignsTo target word) :
      AssignsTo list word

/-- The words among them that a survey declares. -/
inductive Declares (target : SyntaxNode) : SyntaxNode → Prop
  | word (isWord : target.kind = .identifier) : Declares target target
  | entry {word : SyntaxNode} (isList : target.kind = .leftAssignmentList)
      (member : word ∈ target.identifiers) :
      Declares target word

/--
The name of a word is bound in a method, by a parameter or by an assignment in front of the word.  If
the assignment is in a block, then so is the word.
-/
inductive BindsNameOf (root method word : SyntaxNode) (isReached : SyntaxNode → Prop)
    (names : SyntaxNode → SyntaxNode → Prop) : Prop
  | parameter {list entry parameter : SyntaxNode} {kind : ParameterKind}
      (found : method.child? .parameters = some list)
      (member : entry ∈ list.children)
      (bound : (word.text, kind, parameter) ∈ entry.boundParameters)
  | assignment {node target name : SyntaxNode}
      (isAssignment : node.kind = .assignment ∨ node.kind = .operatorAssignment)
      (reached : isReached node)
      (stands : method.StandsIn node)
      (found : node.child? .left = some target)
      (isTarget : names target name)
      (sameText : name.text = word.text)
      (before : node.EndsBy word)
      (blocks : ∀ block ∈ root.preorder, block.isBlock = true → node ∈ block.preorder →
        word ∈ block.preorder)

/-- A word in a method that is shown in the source, and is not a call as a whole. -/
structure IsWordOf (root method word : SyntaxNode) : Prop where
  isMethod : method.kind = .method ∨ method.kind = .singletonMethod
  isWord : word.kind = .identifier
  gateOf : root.IsGateOf method word
  isShown : word.span.start < word.span.stop
  noCall : ∀ call ∈ root.preorder, call.kind = .call → call.span ≠ word.span

/-- What a survey declares stands in the gate of the assignment. -/
theorem Declares.standsIn
    {gate node target word : SyntaxNode}
    (declares : target.Declares word)
    (stands : gate.StandsIn node)
    (found : node.child? .left = some target) :
    gate.StandsIn word ∧ word.kind = .identifier := by
  have isChild := mem_children_of_child? found
  cases declares with
  | word isWord =>
      exact ⟨.part stands isChild (by rw [isWord]; rfl), isWord⟩
  | entry isList member =>
      obtain ⟨inList, isWord⟩ := mem_children_of_mem_identifiers member
      have standsList := stands.part isChild (by rw [isList]; rfl)
      exact ⟨.part standsList inList (by rw [isWord]; rfl), isWord⟩

/-- An assignment binds what a survey declares, and it is visible behind the assignment. -/
theorem Declares.exists_binding
    {node target word : SyntaxNode}
    (declares : target.Declares word)
    (nested : node.IsNestedBy IsApartFrom)
    (isAssignment : node.kind = .assignment ∨ node.kind = .operatorAssignment)
    (found : node.child? .left = some target)
    (region : Region) :
    ∃ bound : Binding, (word, bound) ∈ region.bindings node ∧ bound.name = word.text ∧
      bound.scope.visibleFrom ≤ node.span.stop := by
  cases declares with
  | word isWord =>
      exact ⟨_, Region.mem_bindings_iff.mpr (.target isAssignment found isWord), rfl, le_rfl⟩
  | entry isList member =>
      have inNode : word ∈ node.preorder :=
        mem_preorder_trans (mem_preorder_of_child? found) (mem_preorder_of_mem_identifiers member)
      exact ⟨_, Region.mem_bindings_iff.mpr (.entry isAssignment found isList member), rfl,
        (Span.encloses_iff.mp (nested.encloses inNode)).2⟩

/-- An opened method binds the parameters of its list. -/
theorem Opens.exists_binding
    {root method list entry parameter : SyntaxNode}
    {name : String}
    {kind : ParameterKind}
    (opens : root.Opens method)
    (program : root.IsProgram)
    (isMethod : method.kind = .method ∨ method.kind = .singletonMethod)
    (found : method.child? .parameters = some list)
    (member : entry ∈ list.children)
    (bound : (name, kind, parameter) ∈ entry.boundParameters) :
    ∃ region, root.Walks region method ∧
      (parameter.parameterWord,
        Binding.mk name parameter.span ⟨method.span, method.span, method.span.start⟩ none) ∈
          region.bindings method := by
  cases opens with
  | program =>
      rw [program.kind_eq] at isMethod
      rcases isMethod with isKind | isKind <;> cases isKind
  | @definition region inner _ walks body =>
      refine ⟨region, walks, Region.mem_bindings_iff.mpr (.methodParameter isMethod body found ?_)⟩
      exact List.mem_flatMap.mpr ⟨entry, member, List.mem_map.mpr ⟨_, bound, rfl⟩⟩

/-- Words that are shown in one place are one word. -/
theorem IsNestedBy.eq_of_span_eq
    {root word other : SyntaxNode}
    (nested : root.IsNestedBy IsApartFrom)
    (isLeaf : word.children = [])
    (otherIsLeaf : other.children = [])
    (member : word ∈ root.preorder)
    (otherMember : other ∈ root.preorder)
    (same : word.span = other.span)
    (shown : word.span.start < word.span.stop) :
    other = word := by
  rcases (nested.mono fun _ _ apart => apart.endsBy).mem_preorder_or_mem_preorder_of_span_eq member
    otherMember same shown with below | above
  · exact (eq_of_mem_preorder_leaf otherIsLeaf below).symm
  · exact eq_of_mem_preorder_leaf isLeaf above

end SyntaxNode

namespace Outline

/-- A binding is visible at a position if it is present, declared and in the innermost hard scope. -/
theorem any_localsAt_of_mem_bindings
    {source : Source}
    {region : Region}
    {node word : SyntaxNode}
    {bound : Binding}
    {position : Position}
    (number : Nat)
    (walks : source.root.Walks region node)
    (member : (word, bound) ∈ region.bindings node)
    (present : bound.scope.presence.contains position = true)
    (sameHardScope : bound.scope.hardScope = (ofSource number source).innermostHardScope position)
    (declared : bound.scope.visibleFrom ≤ position) :
    ((ofSource number source).localsAt position).any (·.name = bound.name) = true := by
  obtain ⟨pin, isLocal, ofPin⟩ := exists_local_of_mem_bindings number walks member
  have visible := (mem_localsAt_iff ofPin).mpr ⟨isLocal, present, sameHardScope, declared⟩
  obtain ⟨scope, -, rfl⟩ := Option.map_eq_some_iff.mp ofPin
  exact List.any_eq_true.mpr ⟨pin, visible, decide_eq_true rfl⟩

/-- A name that is bound in an opened method, by a parameter or a declared target, is visible. -/
theorem any_localsAt_of_bindsNameOf
    {source : Source}
    {method word : SyntaxNode}
    (number : Nat)
    (nested : source.root.IsNestedBy SyntaxNode.IsApartFrom)
    (program : source.root.IsProgram)
    (leaves : ∀ node ∈ source.root.preorder, node.kind = .identifier → node.children = [])
    (opens : source.root.Opens method)
    (wordOf : source.root.IsWordOf method word)
    (binds : source.root.BindsNameOf method word
      (fun node => ∃ region, source.root.Walks region node) SyntaxNode.Declares) :
    ((ofSource number source).localsAt word.span.start).any (·.name = word.text) = true := by
  have gateOf := wordOf.gateOf
  have inMethod := nested.contains_start_of_mem gateOf.member gateOf.stands.mem_preorder
  have sameHardScope := innermostHardScope_eq number nested program gateOf
    (gateOf.isOpenedAround nested program opens)
  cases binds with
  | parameter found member bound =>
      obtain ⟨region, walks, inMethodBindings⟩ :=
        opens.exists_binding program wordOf.isMethod found member bound
      exact any_localsAt_of_mem_bindings number walks inMethodBindings inMethod sameHardScope.symm
        (Span.contains_iff.mp inMethod).1
  | @assignment node target name isAssignment reached stands found declares sameText before blocks =>
      obtain ⟨region, walks⟩ := reached
      obtain ⟨standsName, isName⟩ := declares.standsIn stands found
      obtain ⟨bound, member, named, declared⟩ :=
        declares.exists_binding (nested.of_mem walks.mem_preorder) isAssignment found region
      have notGate : name.kind.isScopeGate = false := by
        rw [isName]
        rfl
      have nameGate : source.root.IsGateOf method name := {
        member := gateOf.member
        isGate := gateOf.isGate
        stands := standsName
        isLeaf := leaves name
          (SyntaxNode.mem_preorder_trans gateOf.member standsName.mem_preorder) isName
        notGate := notGate }
      -- The binding belongs to the method, for the name stands in it.
      obtain ⟨gate, owns⟩ := walks.exists_ownsBinding program member notGate
      obtain rfl := owns.eq_of_isGateOf nested program nameGate
      have present : bound.scope.presence.contains word.span.start = true := by
        rcases owns.presence with same | ⟨block, isPart, isBlock, around, same⟩
        · rw [same]
          exact inMethod
        · rw [same]
          exact nested.contains_start_of_mem isPart (blocks block isPart isBlock around)
      rw [← sameText, ← named]
      exact any_localsAt_of_mem_bindings number walks member present
        (owns.hardScope.trans sameHardScope.symm) (declared.trans before)

end Outline

namespace Snapshot

/--
No unresolved call is reported at a word in an opened method whose name is a parameter of the method,
or a declared target of an assignment in front of it that the survey walks.
-/
theorem finding_ne_unresolvedCall
    {snapshot : Snapshot}
    {source : Source}
    {number : Nat}
    {method word : SyntaxNode}
    (known : snapshot.parsedOutline? source.filename = some (.ofSource number source))
    (nested : source.root.IsNestedBy SyntaxNode.IsApartFrom)
    (program : source.root.IsProgram)
    (leaves : ∀ node ∈ source.root.preorder, node.kind = .identifier → node.children = [])
    (opens : source.root.Opens method)
    (wordOf : source.root.IsWordOf method word)
    (binds : source.root.BindsNameOf method word
      (fun node => ∃ region, source.root.Walks region node) SyntaxNode.Declares)
    (state : InferenceState) :
    ∀ problem ∈ ((snapshot.strictTypeProblems source.filename).run state).1,
      problem.location = ⟨source.filename, word.span⟩ →
        ∀ name, problem.finding ≠ .unresolvedCall name := by
  intro problem reported atWord name isUnresolved
  obtain ⟨node, member, mayReport, atNode⟩ :=
    reportsAt_strictTypeProblems known state problem reported name isUnresolved
  have sameSpan : word.span = node.span :=
    congrArg Location.span (atWord.symm.trans atNode)
  rcases mayReport with isCall | ⟨isWord, notLocal⟩
  · exact wordOf.noCall node member isCall sameSpan.symm
  · obtain rfl := nested.eq_of_span_eq wordOf.gateOf.isLeaf (leaves node member isWord)
      wordOf.gateOf.leaf_mem member sameSpan wordOf.isShown
    have isLocal :=
      Outline.any_localsAt_of_bindsNameOf number nested program leaves opens wordOf binds
    exact absurd (isLocal.symm.trans notLocal) (by decide)

end Snapshot

namespace SplatTarget

open Stub.Layout

def parameterList : SyntaxNode :=
  branch .parameters (some .parameters) ⟨0, 8⟩ ⟨0, 14⟩
    [leaf .requiredParameter none ⟨0, 9⟩ "list"]

def headTarget : SyntaxNode :=
  leaf .identifier none ⟨1, 2⟩ "head"

def tailTarget : SyntaxNode :=
  leaf .identifier none ⟨1, 9⟩ "tail"

/-- The targets `head, *tail`. -/
def targets : SyntaxNode :=
  branch .leftAssignmentList (some .left) ⟨1, 2⟩ ⟨1, 13⟩
    [headTarget, branch (.other "rest_assignment") none ⟨1, 8⟩ ⟨1, 13⟩ [tailTarget]]

/-- The assignment `head, *tail = list`. -/
def assignment : SyntaxNode :=
  branch .assignment none ⟨1, 2⟩ ⟨1, 20⟩ [targets, leaf .identifier (some .right) ⟨1, 16⟩ "list"]

def headUse : SyntaxNode :=
  leaf .identifier none ⟨2, 2⟩ "head"

def tailUse : SyntaxNode :=
  leaf .identifier none ⟨3, 2⟩ "tail"

/-- The method `rest(list)`. -/
def definition : SyntaxNode :=
  branch .method none ⟨0, 0⟩ ⟨4, 3⟩
    [leaf .identifier (some .name) ⟨0, 4⟩ "rest", parameterList, assignment, headUse, tailUse]

def source : Source where
  filename := "foo.rb"
  root := branch .program none ⟨0, 0⟩ ⟨5, 0⟩ [definition]
  isParsed := true

theorem isNestedBy : source.root.IsNestedBy SyntaxNode.IsApartFrom := by
  decide

theorem isProgram : source.root.IsProgram :=
  ⟨rfl, by decide, by decide⟩

theorem leaves : ∀ node ∈ source.root.preorder, node.kind = .identifier → node.children = [] := by
  decide

theorem walks_definition : source.root.Walks (.ofProgram source.root.span) definition :=
  .statement List.mem_cons_self

theorem parsedOutline?_ofSources :
    (Snapshot.ofSources [source]).parsedOutline? source.filename = some (.ofSource 1 source) :=
  rfl

theorem assignment_mem : assignment ∈ definition.children :=
  List.mem_cons_of_mem _ (List.mem_cons_of_mem _ List.mem_cons_self)

theorem headUse_mem : headUse ∈ definition.children :=
  List.mem_cons_of_mem _ (List.mem_cons_of_mem _ (List.mem_cons_of_mem _ List.mem_cons_self))

theorem tailUse_mem : tailUse ∈ definition.children :=
  List.mem_of_getLast? rfl

theorem declares_headTarget : targets.Declares headTarget :=
  .entry rfl (List.mem_singleton.mpr rfl)

/-- The second target stands below the list, one list further in. -/
theorem assignsTo_tailTarget : targets.AssignsTo tailTarget :=
  .part rfl (List.mem_cons_of_mem _ List.mem_cons_self)
    (.part rfl (List.mem_singleton.mpr rfl) (.word rfl))

/-- Words in the body are words of the method. -/
theorem isWordOf
    {use : SyntaxNode}
    (member : use ∈ definition.children)
    (isWord : use.kind = .identifier)
    (isLeaf : use.children = [])
    (isShown : use.span.start < use.span.stop) :
    source.root.IsWordOf definition use where
  isMethod := Or.inl rfl
  isWord := isWord
  gateOf := {
    member := SyntaxNode.mem_preorder_of_mem_children List.mem_cons_self
      (SyntaxNode.mem_preorder_self _)
    isGate := rfl
    stands := .part .itself member (by rw [isWord]; rfl)
    isLeaf := isLeaf
    notGate := by rw [isWord]; rfl }
  isShown := isShown
  noCall call inTree isCall := by
    have noCalls : ∀ node ∈ source.root.preorder, node.kind ≠ .call := by decide
    exact absurd isCall (noCalls call inTree)

/-- The assignment binds the name of a use behind it, if it is reached and names such a target. -/
theorem bindsNameOf
    {isReached : SyntaxNode → Prop}
    {names : SyntaxNode → SyntaxNode → Prop}
    {target use : SyntaxNode}
    (reached : isReached assignment)
    (isTarget : names targets target)
    (sameText : target.text = use.text)
    (before : assignment.EndsBy use) :
    source.root.BindsNameOf definition use isReached names :=
  .assignment (Or.inl rfl) reached (.part .itself assignment_mem rfl) rfl isTarget sameText before
    fun block member isBlock _ => by
      have noBlocks : ∀ node ∈ source.root.preorder, node.isBlock = false := by decide
      exact absurd (isBlock.symm.trans (noBlocks block member)) (by decide)

/-- The survey walks the assignment. -/
theorem walks_assignment : ∃ region, source.root.Walks region assignment :=
  ⟨_, .part (.statement List.mem_cons_self)
    (List.mem_map_of_mem (List.mem_filter.mpr ⟨assignment_mem, rfl⟩))⟩

/-- A call is reported at the second name. -/
theorem unresolvedCall_mem_problems :
    ⟨⟨source.filename, tailUse.span⟩, .unresolvedCall "tail"⟩ ∈
      (((Snapshot.ofSources [source]).strictTypeProblems source.filename).run (.ofMemo [])).1 := by
  rw [Snapshot.ofSources_eq_ofList]
  decide +kernel

/-- Problems are found, but no call is reported at the first name. -/
theorem finding_headUse_ne :
    (((Snapshot.ofSources [source]).strictTypeProblems source.filename).run (.ofMemo [])).1 ≠ [] ∧
      ∀ problem ∈
          (((Snapshot.ofSources [source]).strictTypeProblems source.filename).run (.ofMemo [])).1,
        problem.location = ⟨source.filename, headUse.span⟩ →
          ∀ name, problem.finding ≠ .unresolvedCall name :=
  ⟨List.ne_nil_of_mem unresolvedCall_mem_problems,
    Snapshot.finding_ne_unresolvedCall parsedOutline?_ofSources isNestedBy isProgram leaves
      (.definition walks_definition rfl) (isWordOf headUse_mem rfl rfl (by decide))
      (bindsNameOf walks_assignment declares_headTarget rfl (by decide)) (.ofMemo [])⟩

/-- The assignment binds the second name as well. -/
theorem exists_unresolvedCall_of_assignsTo :
    ¬∀ (source : Source) (method word : SyntaxNode),
      source.isParsed = true → source.root.IsNestedBy SyntaxNode.IsApartFrom →
        source.root.IsProgram →
          (∀ node ∈ source.root.preorder, node.kind = .identifier → node.children = []) →
            (method.kind = .singletonMethod → ∃ object, method.child? .object = some object ∧
              (object.kind = .selfReference ∨ object.kind = .constant)) →
              source.root.IsWordOf method word →
                source.root.BindsNameOf method word (fun _ => True) SyntaxNode.AssignsTo →
                  ∀ problem ∈ (((Snapshot.ofSources [source]).strictTypeProblems
                      source.filename).run (.ofMemo [])).1,
                    problem.location = ⟨source.filename, word.span⟩ →
                      ∀ name, problem.finding ≠ .unresolvedCall name := by
  intro neverReported
  exact neverReported source definition tailUse rfl isNestedBy isProgram leaves nofun
    (isWordOf tailUse_mem rfl rfl (by decide))
    (bindsNameOf True.intro assignsTo_tailTarget rfl (by decide)) _ unresolvedCall_mem_problems rfl
    "tail" rfl

end SplatTarget

end TagCheck
