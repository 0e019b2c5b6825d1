import TagCheck.Tree.OfGrammar

namespace TagCheck

/-!
# What a conversion keeps

The nodes of a syntax tree are the nodes of the grammar tree that are kept, in the same order and each
once.  Wrappers around bodies are dissolved, comments are attached and tokens are dropped, and nothing
else is lost, unless a node is so deep that its children are cut off.
-/

/-- The kinds of parameter lists. -/
def parameterLists : List String :=
  ["method_parameters", "bare_parameters", "block_parameters", "lambda_parameters"]

namespace NodeKind

variable {grammarName : String}

theorem ofGrammar_eq_comment_iff :
    ofGrammar grammarName = comment ↔ grammarName = "comment" := by
  constructor
  · intro isComment
    unfold ofGrammar at isComment
    split at isComment <;> first | rfl | cases isComment
  · rintro rfl
    rfl

theorem ofGrammar_eq_parameters_iff :
    ofGrammar grammarName = parameters ↔ grammarName ∈ parameterLists := by
  constructor
  · intro isList
    unfold ofGrammar at isList
    split at isList <;> first | decide | cases isList
  · intro isList
    simp only [parameterLists, List.mem_cons, List.not_mem_nil, or_false] at isList
    rcases isList with rfl | rfl | rfl | rfl <;> rfl

end NodeKind

namespace GrammarNode

mutual

/-- A node and all nodes below it, parents before their children, each with the kind of its parent. -/
def preorder (parent : Option String) : GrammarNode → List (Option String × GrammarNode)
  | ⟨kind, isNamed, field, span, children⟩ =>
      (parent, ⟨kind, isNamed, field, span, children⟩) :: preorderAll (some kind) children

/-- All nodes of several trees in order. -/
def preorderAll (parent : Option String) : List GrammarNode → List (Option String × GrammarNode)
  | [] => []
  | node :: rest => preorder parent node ++ preorderAll parent rest

end

/-- A node that the conversion keeps: no comment, no wrapper, and of the tokens an operator. -/
def isKept (node : GrammarNode) : Bool :=
  if node.isNamed then
    node.kind != "comment" && !SyntaxTree.isBodyWrapper node.kind
  else
    node.field = some "operator"

/-- The kind that a node has after the conversion, by the kind of its parent. -/
def normalizedKind (parent : Option String) (node : GrammarNode) : NodeKind :=
  if !node.isNamed then
    .operator
  else if node.kind = "identifier" ∧ ∃ list ∈ parent, list ∈ parameterLists then
    .requiredParameter
  else
    .ofGrammar node.kind

/-- The nodes that are kept, with the kinds that they get. -/
def kept (nodes : List (Option String × GrammarNode)) : List (NodeKind × Span) :=
  (nodes.filter fun (_, node) => node.isKept).map fun (parent, node) =>
    (node.normalizedKind parent, node.span)

@[simp] theorem kept_nil :
    kept [] = [] :=
  rfl

@[simp] theorem kept_append
    (nodes others : List (Option String × GrammarNode)) :
    kept (nodes ++ others) = kept nodes ++ kept others := by
  simp [kept]

theorem kept_cons
    (parent : Option String)
    (node : GrammarNode)
    (others : List (Option String × GrammarNode)) :
    kept ((parent, node) :: others) =
      if node.isKept then (node.normalizedKind parent, node.span) :: kept others else kept others := by
  by_cases isKept : node.isKept = true <;> simp [kept, isKept]

/-- A comment, or a token: no node below it is converted. -/
def isDropped (node : GrammarNode) : Bool :=
  node.kind == "comment" || !node.isNamed

/-- Comments and tokens are leaves. -/
def HasLeaves (nodes : List (Option String × GrammarNode)) : Prop :=
  ∀ entry ∈ nodes, entry.2.isDropped = true → entry.2.children = []

/-- A node comes first, and behind it the nodes below it. -/
theorem preorder_eq_cons
    (parent : Option String)
    (node : GrammarNode) :
    node.preorder parent = (parent, node) :: preorderAll (some node.kind) node.children := by
  cases node
  rfl

/-- The tree of a program, in which comments and tokens are leaves. -/
structure IsProgram (root : GrammarNode) : Prop where
  isNamed : root.isNamed = true
  kind : root.kind = "program"
  leaves : HasLeaves (root.preorder none)

theorem hasLeaves_preorder
    {parent : Option String}
    {node : GrammarNode} :
    HasLeaves (node.preorder parent) ↔
      (node.isDropped = true → node.children = []) ∧
        HasLeaves (preorderAll (some node.kind) node.children) := by
  simp [HasLeaves, preorder_eq_cons]

theorem hasLeaves_append
    {nodes others : List (Option String × GrammarNode)} :
    HasLeaves (nodes ++ others) ↔ HasLeaves nodes ∧ HasLeaves others := by
  simp [HasLeaves, or_imp, forall_and]

end GrammarNode

namespace SyntaxNode

/-- Kinds and ranges of nodes. -/
def entries (nodes : List SyntaxNode) : List (NodeKind × Span) :=
  nodes.map fun node => (node.kind, node.span)

@[simp] theorem entries_append
    (nodes others : List SyntaxNode) :
    entries (nodes ++ others) = entries nodes ++ entries others :=
  List.map_append

theorem preorderAll_append
    (nodes others : List SyntaxNode) :
    preorderAll (nodes ++ others) = preorderAll nodes ++ preorderAll others := by
  induction nodes with
  | nil =>
      rfl
  | cons node rest inductionHypothesis =>
      simp [preorderAll, inductionHypothesis]

/-- A node comes first, and behind it the nodes below it. -/
theorem entries_preorder
    (node : SyntaxNode) :
    entries node.preorder = (node.kind, node.span) :: entries (preorderAll node.children) := by
  cases node
  rfl

/-- Siblings without the comments among them. -/
def withoutComments (siblings : List SyntaxNode) : List SyntaxNode :=
  siblings.filter fun node => node.kind != .comment

theorem withoutComments_append
    (siblings others : List SyntaxNode) :
    withoutComments (siblings ++ others) = withoutComments siblings ++ withoutComments others :=
  List.filter_append siblings others

/-- Attaching comments takes them out of the siblings, and changes nothing else that is listed. -/
theorem entries_attachCommentsFrom
    (siblings run : List SyntaxNode)
    (lastLine : Option Nat) :
    entries (preorderAll (attachCommentsFrom run lastLine siblings)) =
      entries (preorderAll (withoutComments siblings)) := by
  induction siblings generalizing run lastLine with
  | nil =>
      rfl
  | cons node rest inductionHypothesis =>
      by_cases isComment : node.kind = .comment
      · have isLeftOut : withoutComments (node :: rest) = withoutComments rest := by
          simp [withoutComments, isComment]
        simp only [attachCommentsFrom, isComment, ↓reduceIte, isLeftOut]
        split <;> exact inductionHypothesis _ _
      · have isListed : withoutComments (node :: rest) = node :: withoutComments rest := by
          simp [withoutComments, isComment]
        simp only [attachCommentsFrom, isComment, ↓reduceIte, isListed, preorderAll,
          entries_append, inductionHypothesis]
        split <;> simp [entries_preorder]

theorem entries_attachComments
    (siblings : List SyntaxNode) :
    entries (preorderAll (attachComments siblings)) =
      entries (preorderAll (withoutComments siblings)) :=
  entries_attachCommentsFrom siblings [] none

/-- No comment is left among siblings with attached comments. -/
theorem withoutComments_attachCommentsFrom
    (siblings run : List SyntaxNode)
    (lastLine : Option Nat) :
    withoutComments (attachCommentsFrom run lastLine siblings) =
      attachCommentsFrom run lastLine siblings := by
  induction siblings generalizing run lastLine with
  | nil =>
      rfl
  | cons node rest inductionHypothesis =>
      by_cases isComment : node.kind = .comment
      · simp only [attachCommentsFrom, isComment, ↓reduceIte]
        split <;> exact inductionHypothesis _ _
      · simp only [attachCommentsFrom, isComment, ↓reduceIte]
        have others := inductionHypothesis [] (some node.span.stop.line)
        split <;> simp_all [withoutComments]

end SyntaxNode

namespace SyntaxTree

open SyntaxNode (entries entries_append entries_preorder entries_attachComments withoutComments
  withoutComments_append withoutComments_attachCommentsFrom preorderAll_append)

open GrammarNode (kept kept_append kept_cons isKept isDropped normalizedKind HasLeaves
  hasLeaves_append hasLeaves_preorder preorder_eq_cons)

section Kinds

variable {grammarName : String}

theorem kindOf_eq_parameters_iff
    {inParameters : Bool} :
    kindOf inParameters grammarName = .parameters ↔ grammarName ∈ parameterLists := by
  unfold kindOf
  split
  · next isParameter =>
      simp only [Bool.and_eq_true, beq_iff_eq] at isParameter
      simp [isParameter.2, parameterLists]
  · exact NodeKind.ofGrammar_eq_parameters_iff

end Kinds

variable {source : SourceText} {depth : Nat}

/-- The children of a converted node hold no comments. -/
theorem withoutComments_children_convert
    (field : Option NodeField)
    (inParameters : Bool)
    (node : GrammarNode) :
    withoutComments (convert source field inParameters depth node).children =
      (convert source field inParameters depth node).children := by
  cases node
  simp only [convert]
  split
  · rfl
  · exact withoutComments_attachCommentsFrom _ _ _

/-- A named node gets the kind that its own and its parent's kind give it. -/
theorem kind_convert
    {field : Option NodeField}
    {parent : String}
    {node : GrammarNode}
    (isNamed : node.isNamed = true) :
    (convert source field (parent ∈ parameterLists) depth node).kind =
      node.normalizedKind (some parent) := by
  cases node
  simp_all [convert, kindOf, normalizedKind, and_comm]

theorem kind_convert_false
    {field : Option NodeField}
    (node : GrammarNode) :
    (convert source field false depth node).kind = .ofGrammar node.kind := by
  cases node
  rfl

theorem span_convert
    {field : Option NodeField}
    {inParameters : Bool}
    (node : GrammarNode) :
    (convert source field inParameters depth node).span = node.span := by
  cases node
  rfl

theorem normalizedKind_eq_comment_iff
    {parent : Option String}
    {node : GrammarNode}
    (isNamed : node.isNamed = true) :
    node.normalizedKind parent = .comment ↔ node.kind = "comment" := by
  simp only [normalizedKind, isNamed, Bool.not_true, Bool.false_eq_true, ↓reduceIte]
  split
  · next isParameter =>
      simp [isParameter.1]
  · exact NodeKind.ofGrammar_eq_comment_iff

/-- A named node that is no wrapper becomes one node, unless it is a comment. -/
theorem entries_convert_named
    {field : Option NodeField}
    {parent : String}
    {node : GrammarNode}
    (isNamed : node.isNamed = true)
    (noWrapper : isBodyWrapper node.kind = false)
    (isLeaf : node.isDropped = true → node.children = [])
    (below : entries (SyntaxNode.preorderAll
        (convert source field (parent ∈ parameterLists) depth node).children) =
      kept (GrammarNode.preorderAll (some node.kind) node.children)) :
    entries (SyntaxNode.preorderAll
        (withoutComments [convert source field (parent ∈ parameterLists) depth node])) =
      kept (node.preorder (some parent)) := by
  have sameKind : (convert source field (parent ∈ parameterLists) depth node).kind =
      node.normalizedKind (some parent) :=
    kind_convert isNamed
  by_cases isComment : node.kind = "comment"
  · have noChildren := isLeaf (by simp [isDropped, isComment])
    have isLeftOut :
        withoutComments [convert source field (parent ∈ parameterLists) depth node] = [] := by
      simp [withoutComments, sameKind, (normalizedKind_eq_comment_iff isNamed).mpr isComment]
    simp [isLeftOut, preorder_eq_cons, kept_cons, isKept, isNamed, isComment, noChildren,
      GrammarNode.preorderAll, SyntaxNode.preorderAll, entries]
  · have isListed : withoutComments [convert source field (parent ∈ parameterLists) depth node] =
        [convert source field (parent ∈ parameterLists) depth node] := by
      simp [withoutComments, sameKind, mt (normalizedKind_eq_comment_iff isNamed).mp isComment]
    simp [isListed, preorder_eq_cons, kept_cons, isKept, isNamed, isComment, noWrapper,
      SyntaxNode.preorderAll, entries_preorder, below, sameKind, span_convert]

mutual

/-- What stands below a converted node is what is kept below the node. -/
theorem entries_children_convert
    (field : Option NodeField)
    (inParameters : Bool)
    (depth : Nat) :
    (node : GrammarNode) → isCutOff depth node = false →
      HasLeaves (GrammarNode.preorderAll (some node.kind) node.children) →
      entries (SyntaxNode.preorderAll (convert source field inParameters depth node).children) =
        kept (GrammarNode.preorderAll (some node.kind) node.children)
  | ⟨grammarName, isNamed, fieldName, range, children⟩, notCut, hasLeaves => by
      simp only [isCutOff, Bool.or_eq_false_iff, decide_eq_false_iff_not] at notCut
      simp only [convert, notCut.1, ↓reduceIte, entries_attachComments, kindOf_eq_parameters_iff]
      exact entries_convertChildren grammarName (depth + 1) children notCut.2 hasLeaves

/-- What siblings become, comments left out, is what is kept of them. -/
theorem entries_convertChildren
    (parent : String)
    (depth : Nat) :
    (siblings : List GrammarNode) → anyIsCutOff depth siblings = false →
      HasLeaves (GrammarNode.preorderAll (some parent) siblings) →
      entries (SyntaxNode.preorderAll
          (withoutComments (convertChildren source (parent ∈ parameterLists) depth siblings))) =
        kept (GrammarNode.preorderAll (some parent) siblings)
  | [], notCut, hasLeaves => rfl
  | ⟨grammarName, isNamed, fieldName, range, children⟩ :: rest, notCut, hasLeaves => by
      simp only [anyIsCutOff, Bool.or_eq_false_iff, Bool.and_eq_false_iff] at notCut
      simp only [GrammarNode.preorderAll, hasLeaves_append] at hasLeaves
      obtain ⟨isLeaf, leavesBelow⟩ := hasLeaves_preorder.mp hasLeaves.1
      have others := entries_convertChildren parent depth rest notCut.2 hasLeaves.2
      simp only [convertChildren, GrammarNode.preorderAll, withoutComments_append,
        preorderAll_append, entries_append, kept_append, others]
      congr 1
      cases isNamed with
      | false =>
          have noChildren : children = [] := isLeaf (by simp [isDropped])
          by_cases isOperator : fieldName = some "operator" <;>
            simp [isOperator, noChildren, withoutComments, GrammarNode.preorder,
              GrammarNode.preorderAll, SyntaxNode.preorder, SyntaxNode.preorderAll, kept_cons, isKept,
              normalizedKind, entries]
      | true =>
          have below := fun field inParameters =>
            entries_children_convert field inParameters depth
              ⟨grammarName, true, fieldName, range, children⟩ (by simpa using notCut.1) leavesBelow
          by_cases isWrapper : isBodyWrapper grammarName = true
          · simp only [isWrapper, ↓reduceIte, withoutComments_children_convert, below]
            simp [preorder_eq_cons, kept_cons, isKept, isWrapper]
          · simp only [isWrapper, ↓reduceIte, Bool.false_eq_true]
            exact entries_convert_named rfl (by simpa using isWrapper) isLeaf (below _ _)

end

/-- The root of a program is kept, and first in the list of nodes. -/
theorem entry_root
    {tree : GrammarTree}
    (isProgram : tree.root.IsProgram) :
    ((ofGrammar tree).root.kind, (ofGrammar tree).root.span) = (.program, tree.root.span) ∧
      tree.root.isKept = true ∧ tree.root.normalizedKind none = .program := by
  have isRoot : NodeKind.ofGrammar tree.root.kind = .program := by
    rw [isProgram.kind]
    rfl
  refine ⟨Prod.ext ((kind_convert_false tree.root).trans isRoot) (span_convert tree.root), ?_, ?_⟩
  · simp [isKept, isProgram.isNamed, isProgram.kind, isBodyWrapper]
  · simp [normalizedKind, isProgram.isNamed, isRoot]

/--
The nodes of a program's syntax tree are the kept nodes of its grammar tree, in preorder and with their
normalized kinds, if nothing is cut off.  If they differ, the tree counts as erroneous.
-/
theorem entries_ofGrammar
    {tree : GrammarTree}
    (isProgram : tree.root.IsProgram) :
    (isCutOff 0 tree.root = false →
      entries (ofGrammar tree).root.preorder = kept (tree.root.preorder none)) ∧
      (entries (ofGrammar tree).root.preorder ≠ kept (tree.root.preorder none) →
        (ofGrammar tree).hasErrors = true) := by
  have isComplete : isCutOff 0 tree.root = false →
      entries (ofGrammar tree).root.preorder = kept (tree.root.preorder none) := by
    intro notCut
    have below : entries (SyntaxNode.preorderAll (ofGrammar tree).root.children) =
        kept (GrammarNode.preorderAll (some tree.root.kind) tree.root.children) :=
      entries_children_convert none false 0 tree.root notCut (hasLeaves_preorder.mp isProgram.leaves).2
    obtain ⟨isRoot, isKeptRoot, isProgramRoot⟩ := entry_root isProgram
    rw [entries_preorder, below, isRoot, preorder_eq_cons, kept_cons, if_pos isKeptRoot,
      isProgramRoot]
  refine ⟨isComplete, fun differs => ?_⟩
  cases isCut : isCutOff 0 tree.root with
  | true =>
      simp [ofGrammar, isCut]
  | false =>
      exact absurd (isComplete isCut) differs

end SyntaxTree

namespace DocumentedMethod

/-! The tree of a class with a documented method, whose parameter is changed by an operator. -/

def code : String :=
  "class Foo\n  # Adds.\n  def add(n)\n    n += 1\n  end\nend\n"

def leaf
    (kind : String)
    (field : Option String)
    (line start stop : Nat) :
    GrammarNode :=
  ⟨kind, true, field, ⟨⟨line, start⟩, ⟨line, stop⟩⟩, []⟩

def sum : GrammarNode :=
  ⟨"operator_assignment", true, none, ⟨⟨3, 4⟩, ⟨3, 10⟩⟩,
    [leaf "identifier" (some "left") 3 4 5,
      ⟨"+=", false, some "operator", ⟨⟨3, 6⟩, ⟨3, 8⟩⟩, []⟩,
      leaf "integer" (some "right") 3 9 10]⟩

def method : GrammarNode :=
  ⟨"method", true, none, ⟨⟨2, 2⟩, ⟨4, 5⟩⟩,
    [⟨"def", false, none, ⟨⟨2, 2⟩, ⟨2, 5⟩⟩, []⟩,
      leaf "identifier" (some "name") 2 6 9,
      ⟨"method_parameters", true, some "parameters", ⟨⟨2, 9⟩, ⟨2, 12⟩⟩,
        [leaf "identifier" none 2 10 11]⟩,
      ⟨"body_statement", true, some "body", ⟨⟨3, 4⟩, ⟨3, 10⟩⟩, [sum]⟩]⟩

def tree : GrammarTree where
  code := code
  root := ⟨"program", true, none, ⟨⟨0, 0⟩, ⟨6, 0⟩⟩,
    [⟨"class", true, none, ⟨⟨0, 0⟩, ⟨5, 3⟩⟩,
      [leaf "constant" (some "name") 0 6 9, leaf "comment" none 1 2 9,
        ⟨"body_statement", true, some "body", ⟨⟨2, 2⟩, ⟨4, 5⟩⟩, [method]⟩]⟩]⟩
  hasError := false

theorem isProgram :
    tree.root.IsProgram where
  isNamed := rfl
  kind := rfl
  leaves := by
    unfold GrammarNode.HasLeaves
    decide

theorem entries_tree :
    (SyntaxNode.entries (SyntaxTree.ofGrammar tree).root.preorder).map Prod.fst =
      [.program, .classDefinition, .constant, .method, .identifier, .parameters,
        .requiredParameter, .operatorAssignment, .identifier, .operator, .integer] := by
  have isComplete := (SyntaxTree.entries_ofGrammar isProgram).1 (by decide)
  rw [isComplete]
  decide

end DocumentedMethod

end TagCheck
