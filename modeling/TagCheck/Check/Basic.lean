import TagCheck.Check.Calls

namespace TagCheck

/-!
# Checking a file

Three passes over a file: return types, parameter types, and, on the strict level, what code says
against its documentation.  Only files without syntax errors are checked.
-/

/-- How much is checked. -/
inductive CheckLevel where
  /-- Documentation only. -/
  | normal
  /-- Documentation, inferred types and calls. -/
  | strict
  deriving Repr, DecidableEq

namespace CheckLevel

/-- The word for a level. -/
def display : CheckLevel → String
  | normal => "normal"
  | strict => "strict"

/-- The level that a word stands for, or what is wrong with it. -/
def read (word : String) : Except String CheckLevel :=
  match word with
  | "normal" => .ok normal
  | "strict" => .ok strict
  | other =>
      .error ("unknown check level \x60" ++ other ++ "\x60 (expected normal or strict)")

end CheckLevel

/-- The methods that an outline declares. -/
def Outline.methodPins (outline : Outline) : List Pin :=
  outline.pins.filter (·.method?.isSome)

/-- The method reads or writes an attribute. -/
def PinOf.isAttribute (pin : Pin) : Bool :=
  match pin.method? with
  | some detail => detail.isAttribute
  | none => false

namespace Snapshot

/-- The outline of a file without syntax errors. -/
def parsedOutline? (snapshot : Snapshot) (filename : String) : Option Outline :=
  (snapshot.outline? filename).filter (·.source.isParsed)

/-- What is wrong with the documented return type of a method. -/
def checkReturnTag (snapshot : Snapshot) (pin : Pin) : Inquiry (List Problem) := do
  match snapshot.index.returnTag? pin with
  | none =>
      let inferred ← Inquiry.typeOf pin
      let suggestion := if inferred.isDefined then some inferred.tag else none
      return [⟨pin.location, .undefinedReturn pin.path suggestion⟩]
  | some (type, owner) =>
      return if snapshot.index.isResolvable type owner then
        []
      else
        [⟨pin.location, .unresolvedReturn pin.path type⟩]

/-- Return types that are missing or cannot be resolved; writers of attributes need none. -/
def checkReturnTypes (snapshot : Snapshot) (filename : String) : Inquiry (List Problem) := do
  match snapshot.parsedOutline? filename with
  | none => return []
  | some outline =>
      let checked := outline.methodPins.filter fun pin =>
        !(pin.isAttribute && pin.name.toList.getLast? = some '=')
      return (← checked.mapM snapshot.checkReturnTag).flatten

/-- Documented parameters that a method does not have; with a double splat it may have any. -/
def unknownParamProblems (pin : Pin) : List Problem :=
  if pin.parameters.any (·.kind.kind = .doubleSplat) then
    []
  else
    (pin.doc.tags.filter (·.name = "param")).filterMap fun tag =>
      match tag.param with
      | some name =>
          if pin.parameters.any (·.name = name) then
            none
          else
            some ⟨pin.location, .unknownParam pin.path name⟩
      | none => none

/-- What is wrong with the documented type of a parameter; rest parameters need none. -/
def checkParamTag (snapshot : Snapshot) (pin : Pin) (parameter : ParameterPin) : List Problem :=
  if parameter.kind.kind.isRest then
    []
  else
    match snapshot.index.paramTag? pin parameter.name with
    | none => [⟨pin.location, .undefinedParam pin.path parameter.name⟩]
    | some (type, owner) =>
        if snapshot.index.isResolvable type owner then
          []
        else
          [⟨pin.location, .unresolvedParam pin.path parameter.name⟩]

/-- Parameter types that are missing, superfluous, or cannot be resolved. -/
def paramTypeProblems (snapshot : Snapshot) (filename : String) : List Problem :=
  match snapshot.parsedOutline? filename with
  | none => []
  | some outline =>
      (outline.methodPins.filter (!·.isAttribute)).flatMap fun pin =>
        unknownParamProblems pin ++ pin.parameters.flatMap (snapshot.checkParamTag pin)

/-- Compare the documented return type of a method with what its body returns. -/
def checkReturnValue (snapshot : Snapshot) (pin : Pin) : Inquiry (List Problem) := do
  match snapshot.index.returnTag? pin with
  | none => return []
  | some (type, owner) =>
      if type.isVoid || !snapshot.index.isResolvable type owner then
        return []
      else
        let documented :=
          snapshot.index.qualifyType (type.selfTo (snapshot.selfType pin.innerClosure)) owner
        let inferred ← snapshot.methodReturn pin
        return if inferred.isUndefined ||
            snapshot.index.isCompatible documented inferred owner then
          []
        else
          [⟨pin.location, .returnMismatch pin.path documented inferred⟩]

/-- Code that contradicts its documentation, and calls that reach no method. -/
def checkStrictly (snapshot : Snapshot) (filename : String) : Inquiry (List Problem) := do
  match snapshot.parsedOutline? filename with
  | none => return []
  | some outline =>
      let returned ←
        (outline.methodPins.filter (!·.isAttribute)).mapM snapshot.checkReturnValue
      let calls ← CallCheck.checkNode ⟨snapshot, outline⟩ outline.source.root
      return Problem.sort (returned.flatten ++ calls)

/-- All problems of a file on a level, in the order of their places. -/
def checkFile (snapshot : Snapshot) (filename : String) (level : CheckLevel) :
    Inquiry (List Problem) := do
  let documentation :=
    (← snapshot.checkReturnTypes filename) ++ snapshot.paramTypeProblems filename
  match level with
  | .normal => return Problem.sort documentation
  | .strict => return Problem.sort (documentation ++ (← snapshot.checkStrictly filename))

/-- The problems of the return types, carried out. -/
def returnTypeProblems (snapshot : Snapshot) (filename : String) : Inferring (List Problem) :=
  snapshot.infer (snapshot.checkReturnTypes filename)

/-- The problems of code against its documentation, carried out. -/
def strictTypeProblems (snapshot : Snapshot) (filename : String) : Inferring (List Problem) :=
  snapshot.infer (snapshot.checkStrictly filename)

/-- All problems of a file on a level, carried out. -/
def problems (snapshot : Snapshot) (filename : String) (level : CheckLevel) :
    Inferring (List Problem) :=
  snapshot.infer (snapshot.checkFile filename level)

end Snapshot

end TagCheck
