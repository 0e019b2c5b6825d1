import TagCheck.Inference.PinType
import TagCheck.Inference.Signature

namespace TagCheck.Snapshot

/-!
# What a signature stands for

A chain of calls is followed from its head, one segment after the other, as long as something is
known about what stands before.
-/

/-- The longest chain that is followed. -/
def maxSegments : Nat := 32

/-- The head of a chain inside a closure, with the locals it may name. -/
def resolveHead (snapshot : Snapshot) (closure : Closure) (locals : List Pin) :
    Segment → Inquiry Inference
  | .selfReference => return snapshot.selfReference closure
  | .literal className => return .ofType (.named className)
  | .word name => snapshot.word closure locals name
  | .constant name => snapshot.constant closure name
  | .instanceVariable name => snapshot.instanceVariable closure name
  | .classVariable name => snapshot.classVariable closure name
  | .globalVariable name => snapshot.globalVariable name
  | .index => return .ofUnresolved "[]"

/-- Follow the segments behind the head of a chain. -/
def followSegments (snapshot : Snapshot) (signature : String) (current : Inference) :
    List Segment → Inquiry Inference
  | [] => return current
  | segment :: rest => do
      if !current.isResolved || current.type.isUndefined then
        return ⟨[], [], some (current.unresolved.getD signature)⟩
      else
        match segment with
        | .index =>
            let next ← snapshot.indexInto current.type
            snapshot.followSegments signature next rest
        | .word name =>
            let next ← snapshot.callMethod current.type name true
            snapshot.followSegments signature next rest
        | _ => return .ofUnresolved signature

/-- What is known about a signature that is written inside a pin. -/
def evaluateSignature (snapshot : Snapshot) (signature : String) (context : Pin) (locals : List Pin) :
    Inquiry Inference := do
  match Signature.read? signature with
  | some (head :: rest) =>
      if maxSegments < rest.length + 1 then
        return .ofUnresolved signature
      else
        let first ← snapshot.resolveHead context.innerClosure locals head
        snapshot.followSegments signature first rest
  | _ => return .ofUnresolved signature

/--
The pins that a signature refers to.  Where the signature has another type than the pin declares,
the pin is seen with the signature's type.
-/
def pinsOfSignature (snapshot : Snapshot) (signature : String) (context : Pin)
    (locals : List Pin) : Inquiry (List Pin) := do
  let inference ← snapshot.evaluateSignature signature context locals
  if inference.isResolved then
    return inference.pins.map fun pin =>
      if inference.type.isUndefined || pin.declared = inference.type then
        pin
      else
        pin.proxyWith inference.type
  else
    return []

/-- What is known about a signature, carried out. -/
def resolve (snapshot : Snapshot) (signature : String) (context : Pin) (locals : List Pin) :
    Inferring Inference :=
  snapshot.infer (snapshot.evaluateSignature signature context locals)

/-- The pins that a signature refers to, carried out. -/
def signaturePins (snapshot : Snapshot) (signature : String) (context : Pin)
    (locals : List Pin) : Inferring (List Pin) :=
  snapshot.infer (snapshot.pinsOfSignature signature context locals)

end TagCheck.Snapshot
