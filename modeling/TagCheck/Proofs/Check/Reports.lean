import TagCheck.Check.Basic
import TagCheck.Proofs.Inference.Outcome
import TagCheck.Proofs.Tree.Nesting

namespace TagCheck

/-!
# Where unresolved calls are reported

Whatever is inferred about the receivers, the walk over a file finds nothing but calls that reach no
method and arguments that do not fit.  It reports an unresolved call only at a call, or at an
identifier that names no visible local.  The name that it reports is the text of the identifier or the
name of the call, and for the target of an assignment that of its writer.
-/

namespace CallCheck

/-- A node where an unresolved call may be reported: a call, or a word that names no visible local. -/
def MayReport (check : CallCheck) (node : SyntaxNode) : Prop :=
  node.kind = .call ∨
    node.kind = .identifier ∧
      (check.outline.localsAt node.span.start).any (·.name = node.text) = false

/-- Unresolved calls are reported only at nodes of a list, and only where they may be. -/
def ReportsAt (check : CallCheck) (nodes : List SyntaxNode) (problems : List Problem) : Prop :=
  ∀ problem ∈ problems, ∀ name, problem.finding = .unresolvedCall name →
    ∃ node ∈ nodes, check.MayReport node ∧
      problem.location = ⟨check.outline.filename, node.span⟩

/--
The names under which an unresolved call may be reported at a node: the text of a word, the name of a
call, and the name of the writer that an assignment among the nodes calls on its target.
-/
inductive Names (check : CallCheck) (nodes : List SyntaxNode) (node : SyntaxNode) : String → Prop
  | word (isWord : node.kind = .identifier)
      (notLocal : (check.outline.localsAt node.span.start).any (·.name = node.text) = false) :
      Names check nodes node node.text
  | call {name : String} (isCall : node.kind = .call) (named : node.name? = some name) :
      Names check nodes node name
  | writer {assignment : SyntaxNode} {name : String} (member : assignment ∈ nodes)
      (isAssignment : assignment.kind = .assignment)
      (isTarget : assignment.child? .left = some node) (isCall : node.kind = .call)
      (named : node.name? = some name) :
      Names check nodes node (name ++ "=")

/-- Unresolved calls are reported only at nodes of a list, each under one of the node's names. -/
def NamesAt (check : CallCheck) (nodes : List SyntaxNode) (problems : List Problem) : Prop :=
  ∀ problem ∈ problems, ∀ name, problem.finding = .unresolvedCall name →
    ∃ node ∈ nodes, check.Names nodes node name ∧
      problem.location = ⟨check.outline.filename, node.span⟩

/--
What the check of calls finds at the nodes of a list: a call that reaches no method, under a name of its
node, or an argument of another type than documented.
-/
inductive Finds (check : CallCheck) (nodes : List SyntaxNode) : Problem → Prop
  | call {node : SyntaxNode} {name : String} (member : node ∈ nodes)
      (names : check.Names nodes node name) :
      Finds check nodes (check.problemAt node (.unresolvedCall name))
  | argument (node : SyntaxNode) (path name : String) (expected received : DocUnion) :
      Finds check nodes (check.problemAt node (.argumentMismatch path name expected received))

/-- All problems are such as the check of calls finds at the nodes of a list. -/
def FindsOnly (check : CallCheck) (nodes : List SyntaxNode) (problems : List Problem) : Prop :=
  ∀ problem ∈ problems, check.Finds nodes problem

theorem Names.mayReport
    {check : CallCheck}
    {nodes : List SyntaxNode}
    {node : SyntaxNode}
    {name : String}
    (names : check.Names nodes node name) :
    check.MayReport node := by
  cases names with
  | word isWord notLocal =>
      exact Or.inr ⟨isWord, notLocal⟩
  | call isCall _ | writer _ _ _ isCall _ =>
      exact Or.inl isCall

theorem Names.mono
    {check : CallCheck}
    {nodes more : List SyntaxNode}
    {node : SyntaxNode}
    {name : String}
    (names : check.Names nodes node name)
    (subset : nodes ⊆ more) :
    check.Names more node name := by
  cases names with
  | word isWord notLocal =>
      exact .word isWord notLocal
  | call isCall named =>
      exact .call isCall named
  | writer member isAssignment isTarget isCall named =>
      exact .writer (subset member) isAssignment isTarget isCall named

theorem Finds.mono
    {check : CallCheck}
    {nodes more : List SyntaxNode}
    {problem : Problem}
    (finds : check.Finds nodes problem)
    (subset : nodes ⊆ more) :
    check.Finds more problem := by
  cases finds with
  | call member names =>
      exact .call (subset member) (names.mono subset)
  | argument node path name expected received =>
      exact .argument node path name expected received

namespace FindsOnly

variable {check : CallCheck} {nodes : List SyntaxNode}

theorem nil : check.FindsOnly nodes [] :=
  List.forall_mem_nil _

theorem singleton
    {problem : Problem}
    (finds : check.Finds nodes problem) :
    check.FindsOnly nodes [problem] :=
  List.forall_mem_singleton.mpr finds

theorem append
    {problems others : List Problem}
    (first : check.FindsOnly nodes problems)
    (second : check.FindsOnly nodes others) :
    check.FindsOnly nodes (problems ++ others) :=
  List.forall_mem_append.mpr ⟨first, second⟩

theorem mono
    {more : List SyntaxNode}
    {problems : List Problem}
    (findsOnly : check.FindsOnly nodes problems)
    (subset : nodes ⊆ more) :
    check.FindsOnly more problems :=
  fun problem member => (findsOnly problem member).mono subset

/-- What is found at one node is found at nodes of a list that has it. -/
theorem of_mem
    {node : SyntaxNode}
    {problems : List Problem}
    (findsOnly : check.FindsOnly [node] problems)
    (member : node ∈ nodes) :
    check.FindsOnly nodes problems :=
  findsOnly.mono (List.cons_subset.mpr ⟨member, List.nil_subset nodes⟩)

theorem flatten
    {results : List (List Problem)}
    (each : ∀ problems ∈ results, check.FindsOnly nodes problems) :
    check.FindsOnly nodes results.flatten := by
  intro problem member
  obtain ⟨problems, isResult, isProblem⟩ := List.mem_flatten.mp member
  exact each problems isResult problem isProblem

end FindsOnly

variable {check : CallCheck}

theorem checkResolved_findsOnly
    (receiver : DocUnion)
    {name : String}
    (isExplicit : Bool)
    {nodes : List SyntaxNode}
    {node : SyntaxNode}
    (isNode : node ∈ nodes)
    (names : check.Names nodes node name) :
    (check.checkResolved receiver name isExplicit node).Always (check.FindsOnly nodes) := by
  unfold checkResolved
  split
  · refine .bind (.trivial _) fun call _ => .pure ?_
    split
    · exact .nil
    · exact .singleton (.call isNode names)
  · exact .pure .nil

theorem checkArguments_findsOnly
    (receiver : DocUnion)
    (name : String)
    (isExplicit : Bool)
    (arguments : List SyntaxNode)
    (context : Pin)
    (nodes : List SyntaxNode) :
    (check.checkArguments receiver name isExplicit arguments context).Always
      (check.FindsOnly nodes) := by
  have ofArgument : ∀ method type binding,
      (check.checkArgument method type context binding).Always (check.FindsOnly nodes) := by
    intro method type binding
    unfold checkArgument
    dsimp only
    split
    · exact .pure .nil
    · refine .bind (.trivial _) fun _ _ => .pure ?_
      split
      · exact .nil
      · exact .singleton (.argument _ _ _ _ _)
  unfold checkArguments
  dsimp only
  split
  · exact .pure .nil
  · exact .bind (.mapM fun binding _ => ofArgument _ _ binding) fun _ each => .pure (.flatten each)

theorem checkIdentifier_findsOnly
    {node : SyntaxNode}
    (isWord : node.kind = .identifier) :
    (check.checkIdentifier node).Always (check.FindsOnly [node]) := by
  unfold checkIdentifier
  dsimp only
  split
  · exact .pure .nil
  · next notLocal =>
      exact checkResolved_findsOnly _ _ List.mem_cons_self
        (.word isWord (Bool.eq_false_iff.mpr notLocal))

theorem checkCallOn_findsOnly
    (receiver : DocUnion)
    {name : String}
    (isExplicit : Bool)
    {nodes : List SyntaxNode}
    {node : SyntaxNode}
    (arguments : List SyntaxNode)
    (context : Pin)
    (isNode : node ∈ nodes)
    (names : check.Names nodes node name) :
    (check.checkCallOn receiver name isExplicit node arguments context).Always
      (check.FindsOnly nodes) := by
  unfold checkCallOn
  split
  · exact .pure .nil
  · refine .bind (checkResolved_findsOnly _ _ isNode names) fun calls reports => ?_
    split
    · exact .pure reports
    · exact .bind (checkArguments_findsOnly _ _ _ _ _ nodes) fun _ others =>
        .pure (reports.append others)

theorem checkCall_findsOnly
    {node : SyntaxNode}
    (isCall : node.kind = .call) :
    (check.checkCall node).Always (check.FindsOnly [node]) := by
  unfold checkCall
  dsimp only
  split
  · exact .pure .nil
  · next name named =>
      have names : check.Names [node] node name := .call isCall named
      split
      · exact .bind (.trivial _) fun _ _ => checkCallOn_findsOnly _ _ _ _ List.mem_cons_self names
      · exact checkCallOn_findsOnly _ _ _ _ List.mem_cons_self names

theorem checkTarget_findsOnly
    {node target : SyntaxNode}
    (found : node.child? .left = some target) :
    (check.checkTarget node target).Always (check.FindsOnly node.preorder) := by
  have isPart : target ∈ node.preorder := SyntaxNode.mem_preorder_of_child? found
  unfold checkTarget
  split
  · next isAssignment =>
      split
      · next isCall =>
          unfold checkSetter
          dsimp only
          split
          · next named _ _ =>
              have names : check.Names node.preorder target _ :=
                .writer node.mem_preorder_self isAssignment found isCall named
              exact .bind (.trivial _) fun _ _ => checkCallOn_findsOnly _ _ _ _ isPart names
          · exact .pure .nil
      · unfold checkIndexAssignment
        split
        · refine .bind (.trivial _) fun _ _ => ?_
          dsimp only
          split
          · exact .pure .nil
          · exact checkArguments_findsOnly _ _ _ _ _ _
        · exact .pure .nil
      · exact .pure .nil
  · exact .pure .nil

open SyntaxNode

/-- What is found at nodes of the first tree or of the others is found at nodes of all. -/
theorem FindsOnly.cons
    {node : SyntaxNode}
    {rest : List SyntaxNode}
    {problems others : List Problem}
    (first : check.FindsOnly node.preorder problems)
    (second : check.FindsOnly (preorderAll rest) others) :
    check.FindsOnly (preorderAll (node :: rest)) (problems ++ others) :=
  .append (first.mono (List.subset_append_left _ _)) (second.mono (List.subset_append_right _ _))

set_option linter.unusedSectionVars false in
mutual

/-- The check of a tree finds only calls and arguments, and the calls at nodes of the tree. -/
theorem checkNode_findsOnly :
    ∀ node, (check.checkNode node).Always (check.FindsOnly node.preorder)
  | ⟨kind, field, text?, comments, span, children⟩ => by
      have ofChildren : ∀ {problems}, check.FindsOnly (preorderAll children) problems →
          check.FindsOnly (preorder ⟨kind, field, text?, comments, span, children⟩) problems :=
        fun reports => reports.mono (List.subset_cons_self _ _)
      have ofNode : ∀ {problems},
          check.FindsOnly [⟨kind, field, text?, comments, span, children⟩] problems →
            check.FindsOnly (preorder ⟨kind, field, text?, comments, span, children⟩) problems :=
        fun reports => reports.of_mem (mem_preorder_self _)
      have childrenReport := checkWhere_findsOnly (fun _ => true) children
      have rightReports := checkField_findsOnly .right children
      unfold checkNode
      dsimp only
      split
      case h_6 | h_7 =>
        -- Assignments: the target first, then the value.
        split
        · exact .bind (.pure .nil) fun _ target => .bind rightReports fun _ right =>
            .pure (.append target (ofChildren right))
        · next target found =>
            refine .bind (checkTarget_findsOnly found) fun call atTarget => ?_
            refine .bind (checkTargetParts_findsOnly children) fun parts inParts => ?_
            exact .bind (.pure (atTarget.append (ofChildren inParts))) fun _ inTarget =>
              .bind rightReports fun _ right => .pure (inTarget.append (ofChildren right))
      case h_8 =>
        split
        · exact .pure .nil
        · exact (checkIdentifier_findsOnly rfl).mono fun _ => ofNode
      case h_9 =>
        exact .bind (checkCall_findsOnly rfl) fun _ atCall => .bind childrenReport fun _ inChildren =>
          .pure ((ofNode atCall).append (ofChildren inChildren))
      case h_10 =>
        exact childrenReport.mono fun _ => ofChildren
      all_goals exact .pure .nil

theorem checkWhere_findsOnly
    (property : SyntaxNode → Bool) :
    ∀ nodes, (check.checkWhere property nodes).Always (check.FindsOnly (preorderAll nodes))
  | [] => .pure .nil
  | node :: rest => by
      have restReports := checkWhere_findsOnly property rest
      unfold checkWhere
      dsimp only
      split
      · exact .bind (checkNode_findsOnly node) fun _ inNode => .bind restReports fun _ inRest =>
          .pure (.cons inNode inRest)
      · exact .bind (.pure .nil) fun _ inNode => .bind restReports fun _ inRest =>
          .pure (.cons inNode inRest)

theorem checkField_findsOnly
    (field : NodeField) :
    ∀ nodes, (check.checkField field nodes).Always (check.FindsOnly (preorderAll nodes))
  | [] => .pure .nil
  | node :: rest => by
      unfold checkField
      split
      · exact (checkNode_findsOnly node).mono fun _ inNode =>
          inNode.mono (List.subset_append_left _ _)
      · exact (checkField_findsOnly field rest).mono fun _ inRest =>
          inRest.mono (List.subset_append_right _ _)

theorem checkTargetParts_findsOnly :
    ∀ nodes, (check.checkTargetParts nodes).Always (check.FindsOnly (preorderAll nodes))
  | [] => .pure .nil
  | ⟨kind, field, text?, comments, span, children⟩ :: rest => by
      have inFirst : ∀ {problems},
          check.FindsOnly (preorder ⟨kind, field, text?, comments, span, children⟩) problems →
            check.FindsOnly (preorderAll (⟨kind, field, text?, comments, span, children⟩ :: rest))
              problems :=
        fun reports => reports.mono (List.subset_append_left _ _)
      unfold checkTargetParts
      split
      · split
        · exact .pure .nil
        · split
          · exact (checkWhere_findsOnly _ children).mono fun _ inChildren =>
              inFirst (inChildren.mono (List.subset_cons_self _ _))
          · exact (checkNode_findsOnly _).mono fun _ inNode => inFirst inNode
      · exact (checkTargetParts_findsOnly rest).mono fun _ inRest =>
          inRest.mono (List.subset_append_right _ _)

end

end CallCheck

namespace Snapshot

/-- The check of a return value finds at most that the method returns something else. -/
theorem checkReturnValue_finds
    (snapshot : Snapshot)
    (pin : Pin) :
    (snapshot.checkReturnValue pin).Always fun problems =>
      ∀ problem ∈ problems, ∃ documented inferred,
        problem = ⟨pin.location, .returnMismatch pin.path documented inferred⟩ := by
  unfold checkReturnValue
  split
  · exact .pure (List.forall_mem_nil _)
  · split
    · exact .pure (List.forall_mem_nil _)
    · refine .bind (.trivial _) fun _ _ => .pure ?_
      split
      · exact List.forall_mem_nil _
      · exact List.forall_mem_singleton.mpr ⟨_, _, rfl⟩

/-- The strict check of a file reports unresolved calls only at nodes, and under their names. -/
theorem namesAt_strictTypeProblems
    {snapshot : Snapshot}
    {filename : String}
    {outline : Outline}
    (found : snapshot.parsedOutline? filename = some outline)
    (state : InferenceState) :
    (CallCheck.mk snapshot outline).NamesAt outline.source.root.preorder
      ((snapshot.strictTypeProblems filename).run state).1 := by
  refine Inquiry.Always.follow ?_ _ state
  unfold checkStrictly
  rw [found]
  have noCalls : ∀ pin, (snapshot.checkReturnValue pin).Always fun problems =>
      ∀ problem ∈ problems, ∀ name, problem.finding ≠ .unresolvedCall name := by
    refine fun pin => (snapshot.checkReturnValue_finds pin).mono ?_
    intro problems findsOnly problem member name isUnresolved
    obtain ⟨documented, inferred, rfl⟩ := findsOnly problem member
    cases isUnresolved
  refine .bind (.mapM fun pin _ => noCalls pin) fun returned each => ?_
  refine .bind (CallCheck.checkNode_findsOnly outline.source.root) fun calls inTree => .pure ?_
  intro problem member name isUnresolved
  rcases List.mem_append.mp ((List.mergeSort_perm _ _).mem_iff.mp member) with isReturn | isCall
  · obtain ⟨problems, isResult, isProblem⟩ := List.mem_flatten.mp isReturn
    exact absurd isUnresolved (each problems isResult problem isProblem name)
  · cases inTree problem isCall with
    | call isNode names =>
        cases isUnresolved
        exact ⟨_, isNode, names, rfl⟩
    | argument =>
        cases isUnresolved

/-- The strict check of a file reports unresolved calls only at nodes where they may be. -/
theorem reportsAt_strictTypeProblems
    {snapshot : Snapshot}
    {filename : String}
    {outline : Outline}
    (found : snapshot.parsedOutline? filename = some outline)
    (state : InferenceState) :
    (CallCheck.mk snapshot outline).ReportsAt outline.source.root.preorder
      ((snapshot.strictTypeProblems filename).run state).1 := by
  intro problem member name isUnresolved
  obtain ⟨node, isNode, names, located⟩ :=
    namesAt_strictTypeProblems found state problem member name isUnresolved
  exact ⟨node, isNode, names.mayReport, located⟩

end Snapshot

end TagCheck
