import TagCheck.Inference.Resolver
import TagCheck.Outline.Literal

namespace TagCheck

/-!
# Types of expressions

An expression is evaluated to the type of its value, bottom up along the syntax tree.  Bare words
see the locals that are visible where they stand.
-/

/-- Where an expression is evaluated. -/
structure Site where
  closure : Closure
  filename : String

namespace DocUnion

/-- The union of those types that are defined. -/
def joinDefined (types : List DocUnion) : DocUnion :=
  join (types.filter isDefined)

end DocUnion

namespace SyntaxNode

/-- A statement that can be the last one of a body: clauses behind the body are not. -/
def isValueStatement (child : SyntaxNode) : Bool :=
  child.isStatement && child.kind != .other "rescue" && child.kind != .other "ensure" &&
    child.kind != .elseClause

/-- The statement that gives a body its value. -/
def lastValue? (node : SyntaxNode) : Option SyntaxNode :=
  (node.children.filter isValueStatement).getLast?

/-- The values behind `return`. -/
def returnedValues (node : SyntaxNode) : List SyntaxNode :=
  match node.children.find? (·.kind = .argumentList) with
  | some list => list.statements
  | none => node.statements

/-- The operator of an expression. -/
def operatorText? (node : SyntaxNode) : Option String :=
  (node.child? .operator).map (·.text)

mutual

/-- The `return` statements that leave the method around a node. -/
def returnStatements : SyntaxNode → List SyntaxNode
  | ⟨kind, field, text?, comments, span, children⟩ =>
      match kind with
      | .returnStatement => [⟨kind, field, text?, comments, span, children⟩]
      | .method | .singletonMethod | .classDefinition | .moduleDefinition | .singletonClass
      | .lambda => []
      | _ => returnStatementsOf children

/-- The `return` statements among several nodes. -/
def returnStatementsOf : List SyntaxNode → List SyntaxNode
  | [] => []
  | node :: rest => returnStatements node ++ returnStatementsOf rest

end

end SyntaxNode

namespace Snapshot

/-- A call on an evaluated receiver; what is undefined answers to nothing. -/
def callOn (snapshot : Snapshot) (receiver : Inference) (name : String) (isExplicit : Bool) :
    Inquiry Inference := do
  if receiver.type.isUndefined then
    return ⟨[], [], receiver.unresolved⟩
  else
    snapshot.callMethod receiver.type name isExplicit

mutual

/-- Evaluate an expression. -/
def evaluate (snapshot : Snapshot) (site : Site) : SyntaxNode → Inquiry Inference
  | ⟨kind, field, text?, comments, span, children⟩ => do
      let node : SyntaxNode := ⟨kind, field, text?, comments, span, children⟩
      match node.literalType? with
      | some type => return .ofType type
      | none =>
          match kind with
          | .selfReference => return snapshot.selfReference site.closure
          | .identifier =>
              snapshot.word site.closure (snapshot.localsAt site.filename span.start)
                node.text
          | .constant | .scopeResolution => snapshot.constant site.closure node.text
          | .instanceVariable => snapshot.instanceVariable site.closure node.text
          | .classVariable => snapshot.classVariable site.closure node.text
          | .globalVariable => snapshot.globalVariable node.text
          | .call =>
              match node.name?, node.child? .receiver with
              | none, _ => return .unknown
              | some name, none =>
                  snapshot.callMethod (snapshot.selfType site.closure) name false
              | some name, some receiver =>
                  snapshot.callOn (← snapshot.evaluateField site .receiver children) name
                    (receiver.kind != .selfReference)
          | .elementReference =>
              if (node.child? .object).isNone then
                return .unknown
              else
                let receiver ← snapshot.evaluateField site .object children
                if receiver.type.isUndefined then
                  return receiver
                else
                  snapshot.indexInto receiver.type
          | .assignment | .operatorAssignment => snapshot.evaluateField site .right children
          | .parenthesized | .beginBlock | .thenClause | .elseClause =>
              snapshot.evaluateLastValue site children
          | .ifStatement | .unlessStatement | .elsifClause | .conditional =>
              let consequence ←
                if (node.child? .consequence).isSome then
                  snapshot.evaluateField site .consequence children
                else
                  snapshot.evaluateField site .body children
              let alternative ← snapshot.evaluateField site .alternative children
              return .ofType (.joinDefined [consequence.type, alternative.type])
          | .caseStatement =>
              return .ofType (.joinDefined (← snapshot.evaluateBranches site children))
          | .returnStatement =>
              match node.returnedValues with
              | [] => return .ofType (.named "NilClass")
              | [_] => return .ofType (← snapshot.evaluateReturned site children)
              | _ => return .ofType (.named "Array")
          | .other "binary" =>
              if (node.child? .left).isNone then
                return .unknown
              else
                let left ← snapshot.evaluateField site .left children
                let operator := node.operatorText?.getD ""
                if ["&&", "||", "and", "or"].contains operator then
                  let right ← snapshot.evaluateField site .right children
                  if left.type.isUndefined || right.type.isUndefined then
                    return .unknown
                  else
                    return .ofType (DocUnion.union left.type right.type)
                else if left.type.isUndefined then
                  return .unknown
                else
                  snapshot.callMethod left.type operator true
          | .other "unary" =>
              match node.operatorText? with
              | some "!" | some "not" => return .ofType (.named "Boolean")
              | some "defined?" => return .ofType (.named "String")
              | some "-" | some "+" => snapshot.evaluateFirstStatement site children
              | _ => return .unknown
          | _ => return .unknown

/-- Evaluate the first of several siblings in a role; nothing is known if there is none. -/
def evaluateField (snapshot : Snapshot) (site : Site) (field : NodeField) :
    List SyntaxNode → Inquiry Inference
  | [] => return .unknown
  | node :: rest =>
      if node.field = some field then
        snapshot.evaluate site node
      else
        snapshot.evaluateField site field rest

/-- Evaluate the first statement among several siblings. -/
def evaluateFirstStatement (snapshot : Snapshot) (site : Site) :
    List SyntaxNode → Inquiry Inference
  | [] => return .unknown
  | node :: rest =>
      if node.isStatement then
        snapshot.evaluate site node
      else
        snapshot.evaluateFirstStatement site rest

/-- Evaluate the statement that gives a body its value. -/
def evaluateLastValue (snapshot : Snapshot) (site : Site) :
    List SyntaxNode → Inquiry Inference
  | [] => return .unknown
  | node :: rest =>
      if rest.any SyntaxNode.isValueStatement then
        snapshot.evaluateLastValue site rest
      else if node.isValueStatement then
        snapshot.evaluate site node
      else
        return .unknown

/-- Evaluate the branches of a case: bodies of conditions, and the branch for all else. -/
def evaluateBranches (snapshot : Snapshot) (site : Site) :
    List SyntaxNode → Inquiry (List DocUnion)
  | [] => return []
  | ⟨kind, field, text?, comments, span, children⟩ :: rest => do
      match kind with
      | .whenClause =>
          let branch ← snapshot.evaluateField site .body children
          return branch.type :: (← snapshot.evaluateBranches site rest)
      | .elseClause =>
          let branch ← snapshot.evaluate site ⟨kind, field, text?, comments, span, children⟩
          return branch.type :: (← snapshot.evaluateBranches site rest)
      | _ => snapshot.evaluateBranches site rest

/-- Evaluate the single value behind `return`, inside the first argument list if there is one. -/
def evaluateReturned (snapshot : Snapshot) (site : Site) :
    List SyntaxNode → Inquiry DocUnion
  | [] => return []
  | ⟨kind, field, text?, comments, span, children⟩ :: rest => do
      if kind = .argumentList then
        return (← snapshot.evaluateFirstStatement site children).type
      else if rest.any (·.kind = .argumentList) then
        snapshot.evaluateReturned site rest
      else if SyntaxNode.isStatement ⟨kind, field, text?, comments, span, children⟩ then
        return (← snapshot.evaluate site ⟨kind, field, text?, comments, span, children⟩).type
      else
        snapshot.evaluateReturned site rest

end

/--
The type of the value that a method returns: the union of the values behind `return` and of the
last statement, as far as they are defined.
-/
def methodReturn (snapshot : Snapshot) (method : Pin) : Inquiry DocUnion := do
  match method.method?.bind (·.node) with
  | none => return []
  | some definition =>
      let site : Site := ⟨method.innerClosure, method.location.filename⟩
      let returned ←
        (definition.statements.flatMap SyntaxNode.returnStatements).mapM fun statement => do
          return (← snapshot.evaluate site statement).type
      match definition.lastValue? with
      | none => return .joinDefined returned
      | some last => return .joinDefined (returned ++ [(← snapshot.evaluate site last).type])

end Snapshot

end TagCheck
