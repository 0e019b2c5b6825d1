import TagCheck.Proofs.Check.Reports
import TagCheck.Proofs.Outline.Path
import TagCheck.Proofs.Snapshot
import TagCheck.Proofs.Tree.Conversion

namespace TagCheck

/-!
# Names of unresolved calls

An unresolved call is reported under the text of a word, or of the node that names a call.  The text
is there only if the naming node is of a kind that keeps it, and double colons in front of it are
dropped.  So the report gives the name that is written exactly when the naming node keeps a text that
does not begin with double colons; a call of `super` with arguments is named by a node without text,
and is reported without a name.
-/

namespace Text

/-- Dropping double colons changes nothing, or makes a text shorter by two characters at least. -/
theorem dropColonPairs_eq_or_length_le
    (text : List Char) :
    (dropColonPairs text = text ∧ ¬"::".toList <+: text) ∨
      (dropColonPairs text).length + 2 ≤ text.length := by
  fun_induction dropColonPairs text with
  | case1 rest inductionHypothesis =>
      rcases inductionHypothesis with ⟨same, -⟩ | shorter
      · rw [same]
        exact Or.inr le_rfl
      · simp only [List.length_cons]
        exact Or.inr (by omega)
  | case2 text noColons =>
      refine Or.inl ⟨rfl, ?_⟩
      rintro ⟨rest, rfl⟩
      exact noColons rest rfl

/-- The name of a call is what is written exactly if no double colons stand in front. -/
theorem ofList_dropColonPairs_eq_iff
    {text : String} :
    String.ofList (dropColonPairs text.toList) = text ↔ ¬"::".toList <+: text.toList := by
  rw [← String.toList_inj, String.toList_ofList]
  rcases dropColonPairs_eq_or_length_le text.toList with ⟨same, noColons⟩ | shorter
  · exact iff_of_true same noColons
  · refine iff_of_false (fun same => ?_) (fun noColons => ?_)
    · rw [same] at shorter
      omega
    · rw [dropColonPairs.eq_2 _ fun rest isColons => noColons ⟨rest, isColons.symm⟩] at shorter
      omega

/-- The name of a writer is not what is written for a reader, and the other way round. -/
theorem ofList_dropColonPairs_ne
    (text : String) :
    String.ofList (dropColonPairs text.toList) ≠ text ++ "=" ∧
      String.ofList (dropColonPairs text.toList) ++ "=" ≠ text := by
  have lengths : (dropColonPairs text.toList).length = text.toList.length ∨
      (dropColonPairs text.toList).length + 2 ≤ text.toList.length :=
    (dropColonPairs_eq_or_length_le text.toList).imp_left fun same => congrArg List.length same.1
  have mark : "=".toList.length = 1 := rfl
  constructor <;> intro same
  · have sameLength := congrArg List.length (congrArg String.toList same)
    rw [String.toList_append, String.toList_ofList, List.length_append] at sameLength
    omega
  · have sameLength := congrArg List.length (congrArg String.toList same)
    rw [String.toList_append, String.toList_ofList, List.length_append] at sameLength
    omega

end Text

namespace SyntaxNode

/-- The nodes of a tree are its root and the nodes of its root's children. -/
theorem mem_preorder_iff_eq_or
    {node part : SyntaxNode} :
    part ∈ node.preorder ↔ part = node ∨ part ∈ preorderAll node.children := by
  rw [mem_preorder_iff, preorderAll_eq_flatMap, List.mem_flatMap]

/-- Two nodes are of one kind and show one text at one place. -/
def ShowsAs (node other : SyntaxNode) : Prop :=
  node.kind = other.kind ∧ node.span = other.span ∧ node.text? = other.text?

/-- Attaching comments to siblings changes what no node shows. -/
theorem exists_showsAs_of_mem_attachCommentsFrom
    {siblings run : List SyntaxNode}
    {lastLine : Option Nat}
    {part : SyntaxNode}
    (member : part ∈ preorderAll (attachCommentsFrom run lastLine siblings)) :
    ∃ other ∈ preorderAll siblings, part.ShowsAs other := by
  induction siblings generalizing run lastLine with
  | nil =>
      cases member
  | cons node rest inductionHypothesis =>
      have ofRest : ∀ {run lastLine}, part ∈ preorderAll (attachCommentsFrom run lastLine rest) →
          ∃ other ∈ preorderAll (node :: rest), part.ShowsAs other := by
        intro run lastLine inRest
        obtain ⟨other, isOther, shows⟩ := inductionHypothesis inRest
        exact ⟨other, List.mem_append_right _ isOther, shows⟩
      unfold attachCommentsFrom at member
      split at member
      · dsimp only at member
        split at member <;> exact ofRest member
      · rcases List.mem_append.mp member with inNode | behind
        · rw [mem_preorder_iff_eq_or] at inNode
          rcases inNode with rfl | below
          · refine ⟨node, List.mem_append_left _ node.mem_preorder_self, ?_⟩
            split <;> exact ⟨rfl, rfl, rfl⟩
          · have sameChildren : (if endsAbove run node then
                { node with comments := some (commentText run) } else node).children =
                  node.children := by
              split <;> rfl
            rw [sameChildren] at below
            have inNode : part ∈ node.preorder := mem_preorder_iff_eq_or.mpr (Or.inr below)
            exact ⟨part, List.mem_append_left _ inNode, rfl, rfl, rfl⟩
        · exact ofRest behind

/-- A node shows its place in a text, if its kind keeps a text at all. -/
def IsTextOf (source : SourceText) (node : SyntaxNode) : Prop :=
  node.text? = if node.kind.keepsText then source.slice? node.span else none

theorem ShowsAs.isTextOf
    {source : SourceText}
    {node other : SyntaxNode}
    (shows : node.ShowsAs other)
    (isTextOf : other.IsTextOf source) :
    node.IsTextOf source := by
  obtain ⟨sameKind, sameSpan, sameText⟩ := shows
  rw [IsTextOf, sameKind, sameSpan, sameText]
  exact isTextOf

end SyntaxNode

namespace SyntaxTree

open SyntaxNode

variable (source : SourceText)

mutual

/-- The nodes of a converted tree have the texts of their places. -/
theorem isTextOf_convert
    (field : Option NodeField)
    (inParameters : Bool)
    (depth : Nat) :
    ∀ node, ∀ part ∈ (convert source field inParameters depth node).preorder, part.IsTextOf source
  | ⟨grammarName, isNamed, fieldName, span, children⟩, part, member => by
      rw [convert, preorder] at member
      rcases List.mem_cons.mp member with rfl | below
      · rfl
      · split at below
        · cases below
        · obtain ⟨other, isOther, shows⟩ := exists_showsAs_of_mem_attachCommentsFrom below
          exact shows.isTextOf (isTextOf_convertChildren _ (depth + 1) children other isOther)

theorem isTextOf_convertChildren
    (inParameters : Bool)
    (depth : Nat) :
    ∀ siblings, ∀ part ∈ preorderAll (convertChildren source inParameters depth siblings),
      part.IsTextOf source
  | [], part, member => by
      cases member
  | ⟨grammarName, isNamed, fieldName, span, children⟩ :: rest, part, member => by
      rw [convertChildren, preorderAll_append] at member
      rcases List.mem_append.mp member with here | behind
      · split at here
        · split at here
          · exact isTextOf_convert none false depth
              ⟨grammarName, isNamed, fieldName, span, children⟩ part
              (mem_preorder_iff_eq_or.mpr (Or.inr here))
          · refine isTextOf_convert (fieldName.bind NodeField.ofGrammar?) inParameters depth
              ⟨grammarName, isNamed, fieldName, span, children⟩ part ?_
            simpa [preorderAll] using here
        · split at here
          · have isToken : part = ⟨.operator, some .operator, source.slice? span, none, span, []⟩ := by
              simpa [preorderAll, preorder] using here
            rw [isToken]
            rfl
          · cases here
      · exact isTextOf_convertChildren inParameters depth rest part behind

end

end SyntaxTree

namespace SyntaxNode

/-- The node that names a word or a call: the word itself, and the name or the method of a call. -/
def namingNode? (node : SyntaxNode) : Option SyntaxNode :=
  if node.kind = .identifier then some node else node.nameNode?

/-- A text is written as the name of a word or of a call. -/
def HasName (node : SyntaxNode) (text : String) : Prop :=
  text ≠ "" ∧ ∃ named, node.namingNode? = some named ∧ named.text? = some text

/-- A node is the target of an assignment in a tree. -/
def IsTarget (root node : SyntaxNode) : Prop :=
  ∃ assignment ∈ root.preorder, assignment.kind = .assignment ∧ assignment.child? .left = some node

/--
The names that are written at a word or a call in a tree: its own, and for a call that is the target of
an assignment the name of its writer.
-/
def IsWritten (root node : SyntaxNode) (name : String) : Prop :=
  ∃ text, node.HasName text ∧
    (name = text ∨ node.kind = .call ∧ root.IsTarget node ∧ name = text ++ "=")

/--
The node that names a word or a call is of a kind that keeps its text, and its place in the source is
not empty.  The name of a call has no double colons in front.
-/
def KeepsName (source : SourceText) (node : SyntaxNode) : Prop :=
  ∃ named text, node.namingNode? = some named ∧ named.kind.keepsText = true ∧
    source.slice? named.span = some text ∧ text ≠ "" ∧
      (node.kind = .call → ¬"::".toList <+: text.toList)

variable {source : SourceText} {node : SyntaxNode}

/-- A name is kept if it is written, and has no double colons in front if it is that of a call. -/
theorem keepsName_iff
    (textOf : ∀ named, node.namingNode? = some named → named.IsTextOf source) :
    node.KeepsName source ↔
      ∃ text, node.HasName text ∧ (node.kind = .call → ¬"::".toList <+: text.toList) := by
  constructor
  · rintro ⟨named, text, isNamed, keepsText, atPlace, notEmpty, noColons⟩
    refine ⟨text, ⟨notEmpty, named, isNamed, ?_⟩, noColons⟩
    rw [textOf named isNamed, if_pos keepsText, atPlace]
  · rintro ⟨text, ⟨notEmpty, named, isNamed, hasText⟩, noColons⟩
    rw [textOf named isNamed] at hasText
    split at hasText
    · next keepsText =>
        exact ⟨named, text, isNamed, keepsText, hasText, notEmpty, noColons⟩
    · cases hasText

theorem mem_preorder_of_namingNode?
    {named : SyntaxNode}
    (isNamed : node.namingNode? = some named) :
    named ∈ node.preorder := by
  unfold namingNode? at isNamed
  split at isNamed
  · cases isNamed
    exact node.mem_preorder_self
  · rw [nameNode?, Option.orElse_eq_orElse, Option.orElse_eq_or, Option.or_eq_some_iff] at isNamed
    rcases isNamed with isName | ⟨-, isMethod⟩
    · exact mem_preorder_of_child? isName
    · exact mem_preorder_of_child? isMethod

/-- The name of a call is what is written, without double colons in front. -/
theorem name?_of_hasName
    {text : String}
    (isCall : node.kind = .call)
    (hasName : node.HasName text) :
    node.name? = some (String.ofList (Text.dropColonPairs text.toList)) := by
  obtain ⟨-, named, isNamed, hasText⟩ := hasName
  rw [namingNode?, if_neg (by rw [isCall]; decide)] at isNamed
  rw [name?, isNamed, Option.map_some, SyntaxNode.text, hasText]
  rfl

end SyntaxNode

namespace CallCheck

variable {check : CallCheck} {root node : SyntaxNode} {source : SourceText} {name : String}

/-- The name of a report is written at its node exactly if the node keeps its name. -/
theorem Names.isWritten_iff
    (names : check.Names root.preorder node name)
    (textOf : ∀ named, node.namingNode? = some named → named.IsTextOf source) :
    root.IsWritten node name ↔ node.KeepsName source := by
  rw [SyntaxNode.keepsName_iff textOf]
  refine exists_congr fun text => and_congr_right fun hasName => ?_
  cases names with
  | word isWord _ =>
      obtain ⟨-, named, isNamed, hasText⟩ := hasName
      rw [SyntaxNode.namingNode?, if_pos isWord] at isNamed
      cases isNamed
      have sameText : node.text = text := by
        rw [SyntaxNode.text, hasText, Option.getD_some]
      exact iff_of_true (Or.inl sameText) fun isCall => nomatch isWord.symm.trans isCall
  | call isCall named =>
      have sameName := (SyntaxNode.name?_of_hasName isCall hasName).symm.trans named
      obtain rfl := Option.some.inj sameName
      have noWriter := (Text.ofList_dropColonPairs_ne text).1
      simp [isCall, noWriter, Text.ofList_dropColonPairs_eq_iff]
  | @writer assignment _ member isAssignment isTarget isCall named =>
      have sameName := (SyntaxNode.name?_of_hasName isCall hasName).symm.trans named
      obtain rfl := Option.some.inj sameName
      have noReader := (Text.ofList_dropColonPairs_ne text).2
      have targets : root.IsTarget node := ⟨assignment, member, isAssignment, isTarget⟩
      have sameMark : String.ofList (Text.dropColonPairs text.toList) ++ "=" = text ++ "=" ↔
          String.ofList (Text.dropColonPairs text.toList) = text :=
        String.append_left_inj "="
      simp [isCall, noReader, targets, sameMark, Text.ofList_dropColonPairs_eq_iff]

end CallCheck

namespace Snapshot

/--
In a parsed file every unresolved call is reported at a word or a call, under a name of that node.  The
name is written there exactly if the node keeps it.
-/
theorem isWritten_unresolvedCall_iff
    {snapshot : Snapshot}
    {filename : String}
    {tree : GrammarTree}
    {number : Nat}
    (known : snapshot.parsedOutline? filename =
      some (.ofSource number (.ofGrammar filename tree)))
    (state : InferenceState) :
    ∀ problem ∈ ((snapshot.strictTypeProblems filename).run state).1,
      ∀ name, problem.finding = .unresolvedCall name →
        ∃ node ∈ (SyntaxTree.ofGrammar tree).root.preorder,
          problem.location = ⟨filename, node.span⟩ ∧
            (node.kind = .identifier ∨ node.kind = .call) ∧
              CallCheck.Names ⟨snapshot, .ofSource number (.ofGrammar filename tree)⟩
                  (SyntaxTree.ofGrammar tree).root.preorder node name ∧
                ((SyntaxTree.ofGrammar tree).root.IsWritten node name ↔
                  node.KeepsName (.ofString tree.code)) := by
  intro problem reported name isUnresolved
  obtain ⟨node, isNode, names, located⟩ :=
    namesAt_strictTypeProblems known state problem reported name isUnresolved
  have isWordOrCall : node.kind = .identifier ∨ node.kind = .call := by
    rcases names.mayReport with isCall | ⟨isWord, -⟩
    · exact Or.inr isCall
    · exact Or.inl isWord
  refine ⟨node, isNode, located, isWordOrCall, names, names.isWritten_iff fun named isNamed => ?_⟩
  have isPart : named ∈ node.preorder := SyntaxNode.mem_preorder_of_namingNode? isNamed
  exact SyntaxTree.isTextOf_convert _ none false 0 tree.root named
    (SyntaxNode.mem_preorder_trans isNode isPart)

end Snapshot

namespace NamedCalls

/-! The tree of a method with one statement: a call of `super` with an argument, or an unknown word. -/

def named
    (kind : String)
    (field : Option String)
    (line start stop : Nat)
    (children : List GrammarNode) :
    GrammarNode :=
  ⟨kind, true, field, ⟨⟨line, start⟩, ⟨line, stop⟩⟩, children⟩

/-- The method `bar(a)` with a statement on its third line. -/
def tree (line : String) (statement : GrammarNode) : GrammarTree where
  code := "class Foo\n  def bar(a)\n    " ++ line ++ "\n  end\nend\n"
  root := ⟨"program", true, none, ⟨⟨0, 0⟩, ⟨5, 0⟩⟩,
    [⟨"class", true, none, ⟨⟨0, 0⟩, ⟨4, 3⟩⟩,
      [named "constant" (some "name") 0 6 9 [],
        ⟨"body_statement", true, some "body", ⟨⟨1, 2⟩, ⟨3, 5⟩⟩,
          [⟨"method", true, none, ⟨⟨1, 2⟩, ⟨3, 5⟩⟩,
            [named "identifier" (some "name") 1 6 9 [],
              named "method_parameters" (some "parameters") 1 9 12
                [named "identifier" none 1 10 11 []],
              ⟨"body_statement", true, some "body", statement.span, [statement]⟩]⟩]⟩]⟩]⟩
  hasError := false

def superTree : GrammarTree :=
  tree "super(a)"
    (named "call" none 2 4 12
      [named "super" (some "method") 2 4 9 [],
        named "argument_list" (some "arguments") 2 9 12 [named "identifier" none 2 10 11 []]])

def wordTree : GrammarTree :=
  tree "zork" (named "identifier" none 2 4 8 [])

theorem isProgram :
    superTree.root.IsProgram where
  isNamed := rfl
  kind := rfl
  leaves := by
    unfold GrammarNode.HasLeaves
    decide

open Stub.Layout

/-- The same method as it is read, with its statement. -/
def source (statement : SyntaxNode) : Source where
  filename := "foo.rb"
  root := branch .program none ⟨0, 0⟩ ⟨5, 0⟩
    [branch .classDefinition none ⟨0, 0⟩ ⟨4, 3⟩
      [leaf .constant (some .name) ⟨0, 6⟩ "Foo",
        branch .method none ⟨1, 2⟩ ⟨3, 5⟩
          [leaf .identifier (some .name) ⟨1, 6⟩ "bar",
            branch .parameters (some .parameters) ⟨1, 9⟩ ⟨1, 12⟩
              [leaf .requiredParameter none ⟨1, 10⟩ "a"],
            statement]]]
  isParsed := true

/-- The call of `super` is named by a node without text. -/
def superCall : SyntaxNode :=
  branch .call none ⟨2, 4⟩ ⟨2, 12⟩
    [branch (.other "super") (some .method) ⟨2, 4⟩ ⟨2, 9⟩ [],
      branch .argumentList (some .arguments) ⟨2, 9⟩ ⟨2, 12⟩
        [leaf .identifier none ⟨2, 10⟩ "a"]]

def word : SyntaxNode :=
  leaf .identifier none ⟨2, 4⟩ "zork"

set_option maxRecDepth 10000 in
theorem ofGrammar_superTree : .ofGrammar "foo.rb" superTree = source superCall := by
  rfl

set_option maxRecDepth 10000 in
theorem ofGrammar_wordTree : .ofGrammar "foo.rb" wordTree = source word := by
  rfl

/-- What the strict check finds in the method. -/
def problems (statement : SyntaxNode) : List Problem :=
  (((Snapshot.ofSources [source statement]).strictTypeProblems "foo.rb").run (.ofMemo [])).1

theorem problems_word :
    problems word = [⟨⟨"foo.rb", word.span⟩, .unresolvedCall "zork"⟩] := by
  rw [problems, Snapshot.ofSources_eq_ofList]
  decide +kernel

theorem problems_superCall :
    problems superCall = [⟨⟨"foo.rb", superCall.span⟩, .unresolvedCall ""⟩] := by
  rw [problems, Snapshot.ofSources_eq_ofList]
  decide +kernel

theorem parsedOutline?_word :
    (Snapshot.ofSources [source word]).parsedOutline? "foo.rb" =
      some (.ofSource 1 (.ofGrammar "foo.rb" wordTree)) := by
  rw [ofGrammar_wordTree]
  rfl

/-- The word is reported, under the name that is written there. -/
theorem isWritten_zork :
    problems word ≠ [] ∧ ∀ problem ∈ problems word, ∀ name, problem.finding = .unresolvedCall name →
      ∃ node ∈ (SyntaxTree.ofGrammar wordTree).root.preorder,
        problem.location = ⟨"foo.rb", node.span⟩ ∧
          (node.kind = .identifier ∨ node.kind = .call) ∧
            CallCheck.Names ⟨.ofSources [source word], .ofSource 1 (.ofGrammar "foo.rb" wordTree)⟩
                (SyntaxTree.ofGrammar wordTree).root.preorder node name ∧
              ((SyntaxTree.ofGrammar wordTree).root.IsWritten node name ↔
                node.KeepsName (.ofString wordTree.code)) := by
  refine ⟨?_, Snapshot.isWritten_unresolvedCall_iff parsedOutline?_word _⟩
  rw [problems_word]
  exact List.cons_ne_nil _ _

/-- The call of `super` is reported under a name that is not written there. -/
theorem unresolvedCall_not_written :
    ¬∀ (filename : String) (tree : GrammarTree), tree.root.IsProgram →
      ∀ problem ∈ (((Snapshot.ofSources [.ofGrammar filename tree]).strictTypeProblems
          filename).run (.ofMemo [])).1,
        ∀ name, problem.finding = .unresolvedCall name →
          name ≠ "" ∧ ∃ node ∈ (SyntaxTree.ofGrammar tree).root.preorder,
            problem.location = ⟨filename, node.span⟩ ∧
              (SyntaxTree.ofGrammar tree).root.IsWritten node name := by
  intro alwaysWritten
  have inFoo := alwaysWritten "foo.rb" superTree isProgram
  rw [ofGrammar_superTree] at inFoo
  have reported : ⟨⟨"foo.rb", superCall.span⟩, .unresolvedCall ""⟩ ∈ problems superCall := by
    rw [problems_superCall]
    exact List.mem_cons_self
  exact (inFoo _ reported "" rfl).1 rfl

end NamedCalls

end TagCheck
