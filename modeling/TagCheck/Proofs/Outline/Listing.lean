import TagCheck.Proofs.Outline.Reach

namespace TagCheck

/-!
# What a survey lists

A survey enters nodes in an order that does not depend on what it finds, and every node adds what it
declares itself.  So the declarations of a program, its locals and its hard scopes are listings: what
the walked nodes declare, one node after the other.
-/

namespace Region

/-- The nodes that the walk over a node enters, in their order and each in its region. -/
def walk (region : Region) (node : SyntaxNode) : List (Region × SyntaxNode) :=
  (region, node) :: (region.walked node).attach.flatMap fun part => part.1.1.walk part.1.2
termination_by sizeOf node
decreasing_by exact sizeOf_lt_of_mem_walked part.2

/-- A node is entered before its walked parts. -/
theorem walk_eq
    (region : Region)
    (node : SyntaxNode) :
    region.walk node =
      (region, node) :: (region.walked node).flatMap fun part => part.1.walk part.2 := by
  rw [walk, List.flatMap_subtype (g := fun part => part.1.walk part.2) (fun _ _ => rfl),
    List.unattach_attach]

/-- The walk over a node enters the node, and what the walks over its parts enter. -/
theorem mem_walk_iff
    {region : Region}
    {node : SyntaxNode}
    {entered : Region × SyntaxNode} :
    entered ∈ region.walk node ↔
      entered = (region, node) ∨ ∃ part ∈ region.walked node, entered ∈ part.1.walk part.2 := by
  rw [walk_eq, List.mem_cons, List.mem_flatMap]

/-- What the walk over a node enters stands below the node. -/
theorem mem_preorder_of_mem_walk
    {region : Region}
    {node : SyntaxNode}
    {entered : Region × SyntaxNode}
    (member : entered ∈ region.walk node) :
    entered.2 ∈ node.preorder := by
  induction region, node using walkInduction with
  | step region node inductionHypothesis =>
      rcases mem_walk_iff.mp member with rfl | ⟨part, isWalked, below⟩
      · exact node.mem_preorder_self
      · exact SyntaxNode.mem_preorder_trans (mem_preorder_of_mem_walked isWalked)
          (inductionHypothesis part isWalked below)

/-- The walk goes on into the walked parts of what it enters. -/
theorem mem_walk_of_mem_walked
    {region outer : Region}
    {node parent : SyntaxNode}
    {part : Region × SyntaxNode}
    (entered : (outer, parent) ∈ region.walk node)
    (isWalked : part ∈ outer.walked parent) :
    part ∈ region.walk node := by
  induction region, node using walkInduction with
  | step region node inductionHypothesis =>
      rcases mem_walk_iff.mp entered with same | ⟨piece, isPiece, inPiece⟩
      · cases same
        exact mem_walk_iff.mpr
          (Or.inr ⟨part, isWalked, mem_walk_iff.mpr (Or.inl rfl)⟩)
      · exact mem_walk_iff.mpr
          (Or.inr ⟨piece, isPiece, inductionHypothesis piece isPiece inPiece⟩)

/--
The walked parts of a node stand to each other as its children do, and its target to its value: the
target of an assignment is found by its role, and need not stand in front.
-/
theorem pairwise_walked
    {precedes related : SyntaxNode → SyntaxNode → Prop}
    {node : SyntaxNode}
    (nested : node.IsNestedBy precedes)
    (ofPrecedes : ∀ first second, precedes first second → related first second)
    (sides : ∀ left right, node.child? .left = some left → node.child? .right = some right →
      related left right)
    (region : Region) :
    (region.walked node).Pairwise fun first second => related first.2 second.2 := by
  have ofSublist : ∀ (inner : Region) {nodes : List SyntaxNode} {parent : SyntaxNode},
      parent ∈ node.preorder → nodes.Sublist parent.children →
        (nodes.map (inner, ·)).Pairwise fun first second => related first.2 second.2 := by
    intro inner nodes parent member sublist
    rw [List.pairwise_map]
    exact ((nested.pairwise parent member).imp (ofPrecedes _ _)).sublist sublist
  have self := node.mem_preorder_self
  unfold walked
  split
  case h_1 | h_2 | h_3 | h_4 | h_5 =>
    split
    · exact ofSublist _ self List.filter_sublist
    · exact List.Pairwise.nil
  case h_6 | h_7 =>
    rw [List.pairwise_map]
    cases isLeft : node.child? .left with
    | none =>
        cases node.child? .right <;> simp
    | some left =>
        cases isRight : node.child? .right with
        | none =>
            by_cases declared : Survey.isDeclaredTarget left.kind <;> simp [declared]
        | some right =>
            by_cases declared : Survey.isDeclaredTarget left.kind <;>
              simp [declared, sides left right isLeft isRight]
  case h_8 =>
    split
    · rw [SyntaxNode.arguments_eq]
      cases found : node.child? .arguments with
      | none =>
          exact List.Pairwise.nil
      | some list =>
          rw [Option.toList_some, List.flatMap_singleton]
          exact ofSublist _ (SyntaxNode.mem_preorder_of_child? found)
            (List.filter_sublist.trans List.filter_sublist)
    · exact ofSublist _ self (List.Sublist.refl _)
  case h_9 =>
    split
    · exact List.Pairwise.nil
    · exact ofSublist _ self (List.Sublist.refl _)
  case h_10 | h_11 | h_13 =>
    exact ofSublist _ self List.filter_sublist
  case h_12 =>
    exact List.Pairwise.nil
  case h_14 =>
    exact ofSublist _ self (List.Sublist.refl _)

end Region

namespace SyntaxNode

/-- The nodes of a program that a survey enters, in their order and each in its region. -/
def surveyed (root : SyntaxNode) : List (Region × SyntaxNode) :=
  root.children.flatMap (Region.ofProgram root.span).walk

/-- A survey enters exactly the nodes that are walked. -/
theorem mem_surveyed_iff
    {root node : SyntaxNode}
    {region : Region} :
    (region, node) ∈ root.surveyed ↔ root.Walks region node := by
  constructor
  · intro member
    obtain ⟨statement, isStatement, entered⟩ := List.mem_flatMap.mp member
    -- What is entered below a walked node is walked.
    have below : ∀ outer part, (region, node) ∈ Region.walk outer part →
        root.Walks outer part → root.Walks region node := by
      intro outer part entered walks
      induction outer, part using Region.walkInduction with
      | step outer part inductionHypothesis =>
          rcases Region.mem_walk_iff.mp entered with same | ⟨piece, isWalked, inPiece⟩
          · cases same
            exact walks
          · exact inductionHypothesis piece isWalked inPiece (.part walks isWalked)
    exact below _ statement entered (.statement isStatement)
  · intro walks
    unfold surveyed
    rw [List.mem_flatMap]
    induction walks with
    | @statement statement member =>
        exact ⟨statement, member, Region.mem_walk_iff.mpr (Or.inl rfl)⟩
    | @part outer inner parent child _ member inductionHypothesis =>
        obtain ⟨statement, isStatement, entered⟩ := inductionHypothesis
        exact ⟨statement, isStatement, Region.mem_walk_of_mem_walked entered member⟩

/-- Walked nodes are nodes of the program. -/
theorem Walks.mem_preorder
    {root node : SyntaxNode}
    {region : Region}
    (walks : root.Walks region node) :
    node ∈ root.preorder := by
  induction walks with
  | statement member =>
      exact mem_preorder_of_mem_children member (mem_preorder_self _)
  | part _ member inductionHypothesis =>
      exact mem_preorder_trans inductionHypothesis (Region.mem_preorder_of_mem_walked member)

end SyntaxNode

namespace Survey

/-- A view of a survey to which every node adds items of its own. -/
structure IsListed (source : SourceLabel) (view : Survey → List α)
    (own : Region → SyntaxNode → List α) : Prop where
  withVisibility (survey : Survey) (visibility : Visibility) :
    view { survey with visibility } = view survey
  setVisibility (survey : Survey) (region : Region) (visibility : Visibility) (name : String) :
    view (survey.setVisibility region visibility name) = view survey
  enter (survey : Survey) (region : Region) (node : SyntaxNode) :
    view (survey.enter source region node) = view survey ++ own region node

namespace IsListed

variable {source : SourceLabel} {view : Survey → List α} {own : Region → SyntaxNode → List α}
variable (listed : IsListed source view own)
include listed

omit listed in
/-- Nodes that are walked one after the other add what is declared below each of them. -/
theorem visitEach
    {walked : List (Region × SyntaxNode)}
    (each : ∀ part ∈ walked, ∀ survey : Survey,
      view (Survey.visit source part.1 part.2 survey) =
        view survey ++ (part.1.walk part.2).flatMap fun part => own part.1 part.2)
    (survey : Survey) :
    view (Survey.visitEach source walked survey) =
      view survey ++ walked.flatMap fun part =>
        (part.1.walk part.2).flatMap fun part => own part.1 part.2 := by
  induction walked generalizing survey with
  | nil =>
      exact (List.append_nil _).symm
  | cons part rest inductionHypothesis =>
      have behind := inductionHypothesis (fun part member => each part (List.mem_cons_of_mem _ member))
        (Survey.visit source part.1 part.2 survey)
      rw [visitEach_cons, behind, each part List.mem_cons_self survey, List.append_assoc,
        List.flatMap_cons]

/-- The arguments that get a visibility add what is declared below them, if they name no method. -/
theorem visitArguments
    {region : Region}
    (visibility : Visibility)
    {arguments : List SyntaxNode}
    (each : ∀ argument ∈ arguments, argument.isMethodNameLiteral = false → ∀ survey : Survey,
      view (Survey.visit source region argument survey) =
        view survey ++ (region.walk argument).flatMap fun part => own part.1 part.2)
    (survey : Survey) :
    view (arguments.foldl (visitArgument source region visibility) survey) =
      view survey ++ (arguments.filter fun argument => !argument.isMethodNameLiteral).flatMap
        fun argument => (region.walk argument).flatMap fun part => own part.1 part.2 := by
  induction arguments generalizing survey with
  | nil =>
      exact (List.append_nil _).symm
  | cons argument rest inductionHypothesis =>
      have behind := inductionHypothesis
        (fun argument member => each argument (List.mem_cons_of_mem _ member))
        (visitArgument source region visibility survey argument)
      rw [List.foldl_cons, behind, visitArgument]
      by_cases isLiteral : argument.isMethodNameLiteral
      · rw [if_pos isLiteral, listed.setVisibility, List.filter_cons_of_neg (by simp [isLiteral])]
      · rw [if_neg isLiteral, listed.withVisibility,
          each argument List.mem_cons_self (Bool.eq_false_iff.mpr isLiteral),
          listed.withVisibility, List.append_assoc, List.filter_cons_of_pos (by simp [isLiteral]),
          List.flatMap_cons]

/-- The walk over a node adds what every node declares that it enters. -/
theorem visit
    (region : Region)
    (node : SyntaxNode)
    (survey : Survey) :
    view (Survey.visit source region node survey) =
      view survey ++ (region.walk node).flatMap fun part => own part.1 part.2 := by
  induction region, node using Region.walkInduction generalizing survey with
  | step region node inductionHypothesis =>
      rw [Region.walk_eq, List.flatMap_cons, ← List.append_assoc, ← listed.enter,
        List.flatMap_assoc]
      cases asked : region.argumentVisibility? node with
      | some visibility =>
          rw [visit_of_argumentVisibility? asked, enter_of_argumentVisibility? asked,
            Region.walked_of_argumentVisibility? asked, List.flatMap_map]
          exact listed.visitArguments visibility
            (fun argument member notLiteral => inductionHypothesis (region, argument)
              (Region.mem_walked_of_argumentVisibility? asked member notLiteral))
            survey
      | none =>
          rw [visit_of_argumentVisibility?_eq_none asked, listed.withVisibility]
          exact visitEach inductionHypothesis _

/-- The survey of a program lists what every surveyed node declares. -/
theorem ofProgram
    (root : SyntaxNode) :
    view (Survey.ofProgram source root) =
      view ⟨[], [], [root.span], .publicAccess, 1⟩ ++
        root.surveyed.flatMap fun part => own part.1 part.2 := by
  unfold Survey.ofProgram SyntaxNode.surveyed
  rw [visitWhere_eq, List.filter_eq_self.mpr fun _ _ => rfl,
    visitEach fun part _ => listed.visit part.1 part.2, List.flatMap_map, List.flatMap_assoc]

end IsListed

end Survey

end TagCheck
