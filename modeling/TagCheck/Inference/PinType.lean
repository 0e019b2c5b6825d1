import TagCheck.Inference.Expression

namespace TagCheck

/-!
# Types of pins

The type of a pin is the one that is declared, or the one that is remembered, or the one that its
documentation, its value or its body leads to.  An inference that comes back to a pin under way, or
that is nested too deeply, is cut off; a type is remembered only if nothing was cut off on the way
to it.
-/

namespace Snapshot

/-- How deeply inferences of pins may be nested. -/
def maxInferenceDepth : Nat := 24

/-- The method that has a parameter. -/
def owningMethod? (snapshot : Snapshot) (parameter : Pin) : Option Pin :=
  (snapshot.index.pathPins parameter.closure.path).find? fun method =>
    method.parameters.any (·.id = parameter.id)

/-- The type that the kind of a parameter implies. -/
def impliedParameterType : ParameterKind → DocUnion
  | .splat => .named "Array"
  | .doubleSplat => .named "Hash"
  | .block => .named "Proc"
  | _ => []

/-- The documented type of a method's parameter, or the one that its kind implies. -/
def parameterType (snapshot : Snapshot) (pin : Pin) (detail : ParameterDetail) : DocUnion :=
  let tag :=
    if detail.scope.presence = detail.scope.hardScope then
      (snapshot.owningMethod? pin).bind (snapshot.index.paramTag? · pin.name)
    else
      none
  match tag with
  | some (type, owner) => snapshot.index.qualifyType type owner
  | none => impliedParameterType detail.kind

/-- The type of the value that a variable or a constant is assigned. -/
def assignedType (snapshot : Snapshot) (pin : Pin) : Inquiry DocUnion := do
  match pin.assignment? with
  | none => return []
  | some value =>
      return (← snapshot.evaluate ⟨pin.closure, pin.location.filename⟩ value).type

/-- The type of a pin, apart from its declaration and from what is remembered. -/
def inferAnew (snapshot : Snapshot) (pin : Pin) : Inquiry DocUnion := do
  match pin.kind with
  | .method _ =>
      match snapshot.index.returnTag? pin with
      | some (type, owner) => return snapshot.index.qualifyType type owner
      | none => snapshot.methodReturn pin
  | .parameter detail => return snapshot.parameterType pin detail
  | .localVariable .. | .instanceVariable _ | .classVariable _ | .globalVariable _
  | .constant _ => snapshot.assignedType pin
  | .namespacePin .. | .reference .. | .proxy => return []

/-- The type of a pin with so many nested inferences left, while some pins are under way. -/
def typeOfPinWithin (snapshot : Snapshot) :
    (limit : Nat) → (active : List PinId) → Pin → Inferring DocUnion
  | 0, _, pin => Inferring.unlessKnown pin Inferring.cutOffDepth
  | limit + 1, active, pin =>
      Inferring.unlessKnown pin
        (if pin.id ∈ active then
          Inferring.cutOffCycle
        else
          Inferring.rememberUncut pin
            ((snapshot.inferAnew pin).follow (snapshot.typeOfPinWithin limit (pin.id :: active))))

/-- Carry an inquiry out when no inference is under way. -/
def infer (snapshot : Snapshot) (inquiry : Inquiry α) : Inferring α :=
  inquiry.follow (snapshot.typeOfPinWithin maxInferenceDepth [])

/-- The type of a pin. -/
def typeOfPin (snapshot : Snapshot) (pin : Pin) : Inferring DocUnion :=
  snapshot.infer (.typeOf pin)

/-- What is known about an expression inside a pin. -/
def evaluateIn (snapshot : Snapshot) (context : Pin) (node : SyntaxNode) : Inquiry Inference :=
  snapshot.evaluate ⟨context.innerClosure, context.location.filename⟩ node

/-- What is known about an expression inside a pin, carried out. -/
def resolveNode (snapshot : Snapshot) (node : SyntaxNode) (context : Pin) :
    Inferring Inference :=
  snapshot.infer (snapshot.evaluateIn context node)

end Snapshot

end TagCheck
