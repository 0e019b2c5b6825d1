import TagCheck.Tree.Comments
import TagCheck.Tree.Grammar

namespace TagCheck

/-!
# From grammar trees to syntax trees

Kinds are normalized, wrappers around bodies are dissolved into their parents, comments are
attached, and of the unnamed tokens only operators are kept.  Nodes below the greatest depth are
cut off, and the tree then counts as erroneous.
-/

/-- A source text with its grammar tree. -/
structure GrammarTree where
  code : String
  root : GrammarNode
  /-- The grammar met an error somewhere in the text. -/
  hasError : Bool

/-- A syntax tree, and whether its source has errors. -/
structure SyntaxTree where
  root : SyntaxNode
  hasErrors : Bool

namespace SyntaxTree

/-- Depth from which on the children of a node are dropped. -/
def maxDepth : Nat := 256

/-- Wrappers around the statements of a body. -/
def isBodyWrapper (kind : String) : Bool :=
  kind == "body_statement" || kind == "block_body"

/-- The kind of a node; a plain identifier in a parameter list is a required parameter. -/
def kindOf (inParameters : Bool) (grammarName : String) : NodeKind :=
  if inParameters && grammarName == "identifier" then
    .requiredParameter
  else
    .ofGrammar grammarName

mutual

/-- The syntax node of a named grammar node. -/
def convert (source : SourceText) (field : Option NodeField) (inParameters : Bool) (depth : Nat) :
    GrammarNode → SyntaxNode
  | ⟨grammarName, _, _, span, children⟩ =>
      let kind := kindOf inParameters grammarName
      { kind
        field
        text? := if kind.keepsText then source.slice? span else none
        comments := none
        span
        children :=
          if maxDepth ≤ depth then
            []
          else
            SyntaxNode.attachComments
              (convertChildren source (kind = .parameters) (depth + 1) children) }

/-- The syntax nodes of siblings, comments still among them. -/
def convertChildren (source : SourceText) (inParameters : Bool) (depth : Nat) :
    List GrammarNode → List SyntaxNode
  | [] => []
  | ⟨grammarName, isNamed, fieldName, span, children⟩ :: rest =>
      let here : List SyntaxNode :=
        if isNamed then
          if isBodyWrapper grammarName then
            (convert source none false depth ⟨grammarName, isNamed, fieldName, span, children⟩).children
          else
            [convert source (fieldName.bind NodeField.ofGrammar?) inParameters depth
              ⟨grammarName, isNamed, fieldName, span, children⟩]
        else if fieldName = some "operator" then
          [⟨.operator, some .operator, source.slice? span, none, span, []⟩]
        else
          []
      here ++ convertChildren source inParameters depth rest

end

mutual

/-- Some named node is so deep that its children were dropped. -/
def isCutOff (depth : Nat) : GrammarNode → Bool
  | ⟨_, _, _, _, children⟩ => maxDepth ≤ depth || anyIsCutOff (depth + 1) children

/-- Some named node among siblings, or below one, is too deep. -/
def anyIsCutOff (depth : Nat) : List GrammarNode → Bool
  | [] => false
  | ⟨grammarName, isNamed, fieldName, span, children⟩ :: rest =>
      isNamed && isCutOff depth ⟨grammarName, isNamed, fieldName, span, children⟩ ||
        anyIsCutOff depth rest

end

/-- The syntax tree of a source text. -/
def ofGrammar (tree : GrammarTree) : SyntaxTree where
  root := convert (.ofString tree.code) none false 0 tree.root
  hasErrors := tree.hasError || isCutOff 0 tree.root

end SyntaxTree

end TagCheck
