namespace TagCheck

/-!
# Kinds of nodes and roles of children

A grammar names its kinds of nodes in more detail than the analysis needs: several spellings of
one construct share a kind here, and every kind that the analysis does not look at keeps its
grammar name.
-/

/-- What a node of a syntax tree is. -/
inductive NodeKind where
  | program
  | classDefinition
  | moduleDefinition
  | singletonClass
  | superclass
  | method
  | singletonMethod
  | parameters
  | requiredParameter
  | optionalParameter
  | splatParameter
  | hashSplatParameter
  | blockParameter
  | keywordParameter
  | assignment
  | operatorAssignment
  | leftAssignmentList
  | call
  | argumentList
  | pair
  | splatArgument
  | hashSplatArgument
  | blockArgument
  | block
  | lambda
  | elementReference
  | identifier
  | constant
  | scopeResolution
  | instanceVariable
  | classVariable
  | globalVariable
  | selfReference
  | nilLiteral
  | trueLiteral
  | falseLiteral
  | integer
  | float
  | string
  | symbol
  | regex
  | array
  | hash
  | range
  | returnStatement
  | ifStatement
  | unlessStatement
  | conditional
  | caseStatement
  | whenClause
  | thenClause
  | elseClause
  | elsifClause
  | beginBlock
  | parenthesized
  | setter
  | operator
  | comment
  | error
  /-- A kind that is only walked for its children, by its grammar name. -/
  | other (grammarName : String)
  deriving Repr, DecidableEq, Inhabited

namespace NodeKind

/-- The kind that a grammar name stands for. -/
def ofGrammar : String → NodeKind
  | "program" => program
  | "class" => classDefinition
  | "module" => moduleDefinition
  | "singleton_class" => singletonClass
  | "superclass" => superclass
  | "method" => method
  | "singleton_method" => singletonMethod
  | "method_parameters" | "bare_parameters" | "block_parameters" | "lambda_parameters" => parameters
  | "optional_parameter" => optionalParameter
  | "splat_parameter" => splatParameter
  | "hash_splat_parameter" => hashSplatParameter
  | "block_parameter" => blockParameter
  | "keyword_parameter" => keywordParameter
  | "assignment" => assignment
  | "operator_assignment" => operatorAssignment
  | "left_assignment_list" => leftAssignmentList
  | "call" => call
  | "argument_list" => argumentList
  | "pair" => pair
  | "splat_argument" => splatArgument
  | "hash_splat_argument" => hashSplatArgument
  | "block_argument" => blockArgument
  | "block" | "do_block" => block
  | "lambda" => lambda
  | "element_reference" => elementReference
  | "identifier" => identifier
  | "constant" => constant
  | "scope_resolution" => scopeResolution
  | "instance_variable" => instanceVariable
  | "class_variable" => classVariable
  | "global_variable" => globalVariable
  | "self" => selfReference
  | "nil" => nilLiteral
  | "true" => trueLiteral
  | "false" => falseLiteral
  | "integer" => integer
  | "float" => float
  | "string" | "chained_string" | "heredoc_beginning" | "subshell" | "character" => string
  | "simple_symbol" | "delimited_symbol" | "hash_key_symbol" => symbol
  | "regex" => regex
  | "array" | "string_array" | "symbol_array" => array
  | "hash" => hash
  | "range" => range
  | "return" => returnStatement
  | "if" | "if_modifier" => ifStatement
  | "unless" | "unless_modifier" => unlessStatement
  | "conditional" => conditional
  | "case" => caseStatement
  | "when" => whenClause
  | "then" => thenClause
  | "else" => elseClause
  | "elsif" => elsifClause
  | "begin" => beginBlock
  | "parenthesized_statements" => parenthesized
  | "setter" => setter
  | "operator" => operator
  | "comment" => comment
  | "ERROR" => error
  | grammarName => other grammarName

/-- Kinds whose nodes keep their source text. -/
def keepsText : NodeKind → Bool
  | identifier | requiredParameter | constant | scopeResolution | instanceVariable | classVariable
  | globalVariable | selfReference | integer | float | string | symbol | regex | setter
  | operator | comment => true
  | _ => false

/-- Kinds that write a value down. -/
def isLiteral : NodeKind → Bool
  | nilLiteral | trueLiteral | falseLiteral | integer | float | string | symbol | regex | array
  | hash | range | lambda => true
  | _ => false

/-- Kinds that begin a new scope which no local variable enters or leaves. -/
def isScopeGate : NodeKind → Bool
  | program | classDefinition | moduleDefinition | singletonClass | method | singletonMethod => true
  | _ => false

end NodeKind

/-- The role of a node inside its parent. -/
inductive NodeField where
  | name
  | superclass
  | body
  | parameters
  | receiver
  | method
  | arguments
  | block
  | left
  | right
  | value
  | key
  | object
  | scope
  | condition
  | consequence
  | alternative
  | pattern
  | operator
  deriving Repr, DecidableEq

namespace NodeField

/-- The role that a grammar's field name stands for; other names are no role. -/
def ofGrammar? : String → Option NodeField
  | "name" => some name
  | "superclass" => some superclass
  | "body" => some body
  | "parameters" => some parameters
  | "receiver" => some receiver
  | "method" => some method
  | "arguments" => some arguments
  | "block" => some block
  | "left" => some left
  | "right" => some right
  | "value" => some value
  | "key" => some key
  | "object" => some object
  | "scope" => some scope
  | "condition" => some condition
  | "consequence" => some consequence
  | "alternative" => some alternative
  | "pattern" => some pattern
  | "operator" => some operator
  | _ => none

end NodeField

end TagCheck
