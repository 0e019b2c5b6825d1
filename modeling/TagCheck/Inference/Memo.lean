import TagCheck.Inference.Inquiry

namespace TagCheck

/-!
# Inference with a memory

Types of pins are remembered once they are inferred, so that later questions to the same snapshot
need not infer them again.  The memory is a value that every inference takes and returns, together
with a count of the inferences that were cut off because of a cycle or of their depth.
-/

/-- The types that were inferred for pins. -/
abbrev Memo := List (PinId × DocUnion)

/-- What inferences leave behind: the memory, and how many of them were cut off. -/
structure InferenceState where
  memo : Memo
  /-- Inferences that came back to a pin under way. -/
  cycles : Nat
  /-- Inferences that were nested too deeply. -/
  overruns : Nat

namespace InferenceState

/-- A memory, and nothing was cut off yet. -/
def ofMemo (memo : Memo) : InferenceState :=
  ⟨memo, 0, 0⟩

/-- All inferences that were cut off. -/
def cutOffs (state : InferenceState) : Nat :=
  state.cycles + state.overruns

end InferenceState

/-- A computation that may look types up in the memory and add to it. -/
abbrev Inferring := StateM InferenceState

/-- Pins whose types are remembered: all but those of the core library. -/
def PinOf.isRemembered (pin : Pin) : Bool :=
  pin.location.filename ≠ CoreLibrary.filename

namespace Inferring

/-- The type that is remembered for a pin. -/
def remembered? (pin : Pin) : Inferring (Option DocUnion) := do
  return (← get).memo.lookup pin.id

/-- Remember the type of a pin. -/
def remember (pin : Pin) (type : DocUnion) : Inferring Unit :=
  modify fun state => { state with memo := (pin.id, type) :: state.memo }

/-- Give up on a pin that is under way: nothing is known about its type. -/
def cutOffCycle : Inferring DocUnion := do
  modify fun state => { state with cycles := state.cycles + 1 }
  return []

/-- Give up on a pin that is nested too deeply: nothing is known about its type. -/
def cutOffDepth : Inferring DocUnion := do
  modify fun state => { state with overruns := state.overruns + 1 }
  return []

/-- The type of a pin as it is declared or remembered; only if it is neither, it is inferred. -/
def unlessKnown (pin : Pin) (infer : Inferring DocUnion) : Inferring DocUnion := do
  if pin.declared.isDefined then
    return pin.declared
  else
    match ← remembered? pin with
    | some type => return type
    | none => infer

/-- Infer the type of a pin, and remember it if nothing was cut off on the way. -/
def rememberUncut (pin : Pin) (infer : Inferring DocUnion) : Inferring DocUnion := do
  let before ← get
  let type ← infer
  let after ← get
  if after.cutOffs = before.cutOffs && pin.isRemembered then
    remember pin type
  return type

/-- Run a computation on a memory. -/
def runOn (computation : Inferring α) (memo : Memo) : α × Memo :=
  let (result, state) := computation.run (.ofMemo memo)
  (result, state.memo)

end Inferring

/-- What is known about an expression. -/
structure Inference where
  type : DocUnion
  /-- The pins that the last step of the expression refers to. -/
  pins : List Pin
  /-- The first name that refers to nothing. -/
  unresolved : Option String

namespace Inference

/-- Nothing is known, and no name is to blame. -/
def unknown : Inference :=
  ⟨[], [], none⟩

/-- Only the type is known. -/
def ofType (type : DocUnion) : Inference :=
  ⟨type, [], none⟩

/-- A name refers to nothing. -/
def ofUnresolved (name : String) : Inference :=
  ⟨[], [], some name⟩

/-- Every name refers to something. -/
def isResolved (inference : Inference) : Bool :=
  inference.unresolved.isNone

end Inference

end TagCheck
