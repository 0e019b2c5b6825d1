import TagCheck.Check.Problem
import TagCheck.Inference.PinType

namespace TagCheck

/-!
# Checking calls

A walk over a syntax tree that compares the arguments of calls with documented parameters, and
finds the calls that reach no method of a receiver whose methods are all known.
-/

/-- The snapshot, and the outline of the file that is checked. -/
structure CallCheck where
  snapshot : Snapshot
  outline : Outline

namespace SyntaxNode

/-- The key of a pair of arguments, without colons. -/
def argumentKey (key : SyntaxNode) : String :=
  let name := key.text.toList.dropWhile (· == ':')
  String.ofList (name.reverse.dropWhile (· == ':')).reverse

end SyntaxNode

/--
Which arguments of a call are compared with which parameters.  Pairs go to the keyword parameter of
their name.  Other arguments take the positional parameters in turn, up to the first splat, behind
which nobody knows where an argument goes.
-/
def bindArguments (parameters : List ParameterPin) :
    (isAligned : Bool) → (positional : List ParameterPin) → List SyntaxNode →
      List (ParameterPin × SyntaxNode)
  | _, _, [] => []
  | isAligned, positional, argument :: rest =>
      match argument.kind with
      | .splatArgument => bindArguments parameters false positional rest
      | .hashSplatArgument | .blockArgument => bindArguments parameters isAligned positional rest
      | .pair =>
          let isNamed (key : SyntaxNode) (parameter : ParameterPin) : Bool :=
            parameter.name = key.argumentKey && parameter.kind.kind.isKeyword
          let bound :=
            match argument.child? .key, argument.child? .value with
            | some key, some value => (parameters.find? (isNamed key)).map (·, value)
            | _, _ => none
          bound.toList ++ bindArguments parameters isAligned positional rest
      | _ =>
          match isAligned, positional with
          | true, parameter :: others =>
              (parameter, argument) :: bindArguments parameters isAligned others rest
          | _, _ => bindArguments parameters isAligned positional rest

namespace CallCheck

/-- A problem at a node of the file. -/
def problemAt (check : CallCheck) (node : SyntaxNode) (finding : Finding) : Problem :=
  ⟨⟨check.outline.filename, node.span⟩, finding⟩

/-- The methods of a receiver are all known. -/
def isClosed (check : CallCheck) (receiver : DocType) : Bool :=
  let index := check.snapshot.index
  !receiver.isDuck && !receiver.isGeneric && !receiver.isSelf && !receiver.isVoid &&
    !index.isOpen receiver.refersTo &&
    (receiver.isMeta || index.namespaceKind? receiver.refersTo != some .moduleNamespace)

/-- Report a call that no alternative of a receiver answers, if all their methods are known. -/
def checkResolved (check : CallCheck) (receiver : DocUnion) (name : String) (isExplicit : Bool)
    (node : SyntaxNode) : Inquiry (List Problem) := do
  if receiver.all check.isClosed then
    let call ← check.snapshot.callMethod receiver name isExplicit
    return if call.isResolved then [] else [check.problemAt node (.unresolvedCall name)]
  else
    return []

/-- The method that a call reaches; a call of `new` on a class reaches its constructor. -/
def callee? (check : CallCheck) (name : String) (isExplicit : Bool) (receiver : DocType) :
    Option Pin :=
  if receiver.isMeta && name = "new" then
    check.snapshot.initializer? receiver.refersTo
  else
    check.snapshot.calledMethod? receiver name isExplicit

/-- The documented type of a method's parameter, and where it was written. -/
def documentedParameter? (check : CallCheck) (method : Pin) (parameter : ParameterPin) :
    Option (DocUnion × String) :=
  if parameter.declared.isDefined then
    some (parameter.declared, method.closure.namespacePath)
  else
    check.snapshot.index.paramTag? method parameter.name

/-- The receiver as a method sees it; a constructor sees the instance that is made. -/
def receiverOf (method : Pin) (receiver : DocType) : DocType :=
  if receiver.isMeta && method.name = "initialize" then
    (receiver.instanceType?.bind List.head?).getD receiver
  else
    receiver

/-- Compare an argument with the documented type of its parameter. -/
def checkArgument (check : CallCheck) (method : Pin) (receiver : DocType) (context : Pin)
    (binding : ParameterPin × SyntaxNode) : Inquiry (List Problem) := do
  let (parameter, argument) := binding
  match check.documentedParameter? method parameter with
  | none => return []
  | some (type, owner) =>
      let expected := check.snapshot.specialize type (receiverOf method receiver) owner
      let actual := (← check.snapshot.evaluateIn context argument).type
      return if check.snapshot.index.isCompatible expected actual owner then
        []
      else
        [check.problemAt argument (.argumentMismatch method.path parameter.name expected actual)]

/-- Compare arguments with the parameters of the method that the first alternative has. -/
def checkArguments (check : CallCheck) (receiver : DocUnion) (name : String) (isExplicit : Bool)
    (arguments : List SyntaxNode) (context : Pin) : Inquiry (List Problem) := do
  let reached := receiver.findSome? fun type =>
    (check.callee? name isExplicit type).map (·, type)
  match reached with
  | none => return []
  | some (method, type) =>
      let positional := method.parameters.filter (·.kind.kind.isPositional)
      let bindings := bindArguments method.parameters true positional arguments
      return (← bindings.mapM (check.checkArgument method type context)).flatten

/-- A bare word names a visible local, or a method of `self`. -/
def checkIdentifier (check : CallCheck) (node : SyntaxNode) : Inquiry (List Problem) := do
  let position := node.span.start
  if (check.outline.localsAt position).any (·.name = node.text) then
    return []
  else
    let context := check.outline.closureAt position
    check.checkResolved (check.snapshot.selfType context.innerClosure) node.text false node

/-- Check that a call on a known receiver reaches a method, and its arguments. -/
def checkCallOn (check : CallCheck) (receiver : DocUnion) (name : String) (isExplicit : Bool)
    (node : SyntaxNode) (arguments : List SyntaxNode) (context : Pin) :
    Inquiry (List Problem) := do
  if receiver.isUndefined then
    return []
  else
    let calls ← check.checkResolved receiver name isExplicit node
    if arguments.isEmpty then
      return calls
    else
      return calls ++ (← check.checkArguments receiver name isExplicit arguments context)

/-- Check a call on its receiver, or on `self` if it has none. -/
def checkCall (check : CallCheck) (node : SyntaxNode) : Inquiry (List Problem) := do
  match node.name? with
  | none => return []
  | some name =>
      let context := check.outline.closureAt node.span.start
      match node.child? .receiver with
      | some receiver =>
          let type := (← check.snapshot.evaluateIn context receiver).type
          check.checkCallOn type name (receiver.kind != .selfReference) node node.arguments context
      | none =>
          check.checkCallOn (check.snapshot.selfType context.innerClosure) name false node
            node.arguments context

/-- Check the call of a writer by an assignment. -/
def checkSetter (check : CallCheck) (target : SyntaxNode) (value? : Option SyntaxNode) :
    Inquiry (List Problem) := do
  match target.name?, target.child? .receiver, value? with
  | some name, some receiver, some value =>
      let context := check.outline.closureAt target.span.start
      let type := (← check.snapshot.evaluateIn context receiver).type
      check.checkCallOn type (name ++ "=") (receiver.kind != .selfReference) target [value] context
  | _, _, _ => return []

/-- Check the arguments of an assignment to an indexed place. -/
def checkIndexAssignment (check : CallCheck) (target : SyntaxNode) (value? : Option SyntaxNode) :
    Inquiry (List Problem) := do
  match target.child? .object, value? with
  | some object, some value =>
      let context := check.outline.closureAt target.span.start
      let type := (← check.snapshot.evaluateIn context object).type
      if type.isUndefined then
        return []
      else
        check.checkArguments type "[]=" true (target.statements ++ [value]) context
  | _, _ => return []

/-- Check the target of an assignment as a call, if it is one. -/
def checkTarget (check : CallCheck) (node target : SyntaxNode) : Inquiry (List Problem) :=
  if node.kind = .assignment then
    match target.kind with
    | .call => check.checkSetter target (node.child? .right)
    | .elementReference => check.checkIndexAssignment target (node.child? .right)
    | _ => return []
  else
    return []

/-- Identifiers in these roles are names, and no calls. -/
def isNameRole : Option NodeField → Bool
  | some .name | some .method | some .key | some .pattern => true
  | _ => false

/-- The parts of an assignment's target that are walked. -/
def isWalkedPart (target : NodeKind) (part : SyntaxNode) : Bool :=
  match target with
  | .call => part.field != some .method
  | _ => true

/-- Targets of assignments that bind a name and hold no calls. -/
def isBoundTarget : NodeKind → Bool
  | .identifier | .instanceVariable | .classVariable | .globalVariable | .constant
  | .leftAssignmentList => true
  | _ => false

mutual

/-- Check a node and everything below it. -/
def checkNode (check : CallCheck) : SyntaxNode → Inquiry (List Problem)
  | ⟨kind, field, text?, comments, span, children⟩ => do
      let node : SyntaxNode := ⟨kind, field, text?, comments, span, children⟩
      match kind with
      | .parameters | .leftAssignmentList | .other "alias" | .other "undef"
      | .other "exception_variable" => return []
      | .assignment | .operatorAssignment =>
          let inTarget ←
            match node.child? .left with
            | none => pure []
            | some target => do
                let call ← check.checkTarget node target
                let parts ← check.checkTargetParts children
                pure (call ++ parts)
          return inTarget ++ (← check.checkField .right children)
      | .identifier => if isNameRole field then return [] else check.checkIdentifier node
      | .call =>
          let call ← check.checkCall node
          return call ++ (← check.checkWhere (fun _ => true) children)
      | _ => check.checkWhere (fun _ => true) children

/-- Check those of several siblings that have a property. -/
def checkWhere (check : CallCheck) (property : SyntaxNode → Bool) :
    List SyntaxNode → Inquiry (List Problem)
  | [] => return []
  | node :: rest => do
      let here ← if property node then check.checkNode node else pure []
      return here ++ (← check.checkWhere property rest)

/-- Check the first of several siblings in a role. -/
def checkField (check : CallCheck) (field : NodeField) :
    List SyntaxNode → Inquiry (List Problem)
  | [] => return []
  | node :: rest =>
      if node.field = some field then
        check.checkNode node
      else
        check.checkField field rest

/-- Check the parts of an assignment's target, which is the first sibling on the left. -/
def checkTargetParts (check : CallCheck) : List SyntaxNode → Inquiry (List Problem)
  | [] => return []
  | ⟨kind, field, text?, comments, span, children⟩ :: rest =>
      if field = some .left then
        if isBoundTarget kind then
          return []
        else if kind = .call || kind = .elementReference then
          check.checkWhere (isWalkedPart kind) children
        else
          check.checkNode ⟨kind, field, text?, comments, span, children⟩
      else
        check.checkTargetParts rest

end

end CallCheck

end TagCheck
