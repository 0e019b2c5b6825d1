import TagCheck.DocType.Basic
import TagCheck.Tree.Node

namespace TagCheck.SyntaxNode

/-!
# Types of literals
-/

/-- The name of the type that a literal of some kind has. -/
def literalTypeName? : NodeKind → Option String
  | .string => some "String"
  | .symbol => some "Symbol"
  | .integer => some "Integer"
  | .float => some "Float"
  | .array => some "Array"
  | .hash => some "Hash"
  | .trueLiteral | .falseLiteral => some "Boolean"
  | .nilLiteral => some "NilClass"
  | .regex => some "Regexp"
  | .range => some "Range"
  | .lambda => some "Proc"
  | _ => none

/-- The type of a literal; none for all other nodes. -/
def literalType? (node : SyntaxNode) : Option DocUnion :=
  (literalTypeName? node.kind).map DocUnion.named

end TagCheck.SyntaxNode
