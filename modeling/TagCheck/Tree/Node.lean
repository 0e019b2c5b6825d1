import TagCheck.Tree.Kind
import TagCheck.Tree.Span
import TagCheck.Text.Pieces

namespace TagCheck

/-!
# Syntax trees

The trees that the analysis reads.  Statements of a body are direct children of the construct they
belong to, and comments are no nodes: a comment stands on the node that it documents.
-/

/-- A node of a syntax tree. -/
structure SyntaxNode where
  kind : NodeKind
  field : Option NodeField
  text? : Option String
  comments : Option String
  span : Span
  children : List SyntaxNode
  deriving Repr, Inhabited

namespace SyntaxNode

/-- The text of a node; empty for kinds that keep none. -/
def text (node : SyntaxNode) : String :=
  node.text?.getD ""

/-- The first child in a role. -/
def child? (node : SyntaxNode) (field : NodeField) : Option SyntaxNode :=
  node.children.find? (·.field = some field)

/-- A child that is a statement of its parent's body: it has no role, or the role of a body. -/
def isStatement (child : SyntaxNode) : Bool :=
  child.field = none || child.field = some .body

/-- The statements of a body. -/
def statements (node : SyntaxNode) : List SyntaxNode :=
  node.children.filter isStatement

/-- The node that names a definition or a call. -/
def nameNode? (node : SyntaxNode) : Option SyntaxNode :=
  node.child? .name <|> node.child? .method

/-- The name of a definition or a call, without double colons in front. -/
def name? (node : SyntaxNode) : Option String :=
  node.nameNode?.map fun named => String.ofList (Text.dropColonPairs named.text.toList)

mutual

/-- A node and all nodes below it, parents before their children. -/
def preorder : SyntaxNode → List SyntaxNode
  | ⟨kind, field, text?, comments, span, children⟩ =>
      ⟨kind, field, text?, comments, span, children⟩ :: preorderAll children

/-- All nodes of several trees in order. -/
def preorderAll : List SyntaxNode → List SyntaxNode
  | [] => []
  | node :: rest => preorder node ++ preorderAll rest

end

mutual

/-- A node and all nodes below it with their depths, parents before their children. -/
def preorderWithDepth (depth : Nat) : SyntaxNode → List (Nat × SyntaxNode)
  | ⟨kind, field, text?, comments, span, children⟩ =>
      (depth, ⟨kind, field, text?, comments, span, children⟩) ::
        preorderWithDepthAll (depth + 1) children

/-- All nodes of several trees with their depths, in order. -/
def preorderWithDepthAll (depth : Nat) : List SyntaxNode → List (Nat × SyntaxNode)
  | [] => []
  | node :: rest => preorderWithDepth depth node ++ preorderWithDepthAll depth rest

end

mutual

/-- Some node of the tree is a syntax error. -/
def containsError : SyntaxNode → Bool
  | ⟨kind, _, _, _, _, children⟩ => kind == .error || anyContainsError children

/-- Some node of several trees is a syntax error. -/
def anyContainsError : List SyntaxNode → Bool
  | [] => false
  | node :: rest => containsError node || anyContainsError rest

end

end SyntaxNode

end TagCheck
