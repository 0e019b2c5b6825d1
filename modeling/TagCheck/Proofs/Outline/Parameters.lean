import TagCheck.Proofs.Outline.Entering
import TagCheck.Proofs.Outline.Identity

namespace TagCheck

/-!
# Parameters and their methods

The parameters of a method are numbered when the method is declared, and they store the path of the
method as that of their closure.  So no two methods share a parameter, whatever their paths are, and
a later change of visibility leaves a method its path and its parameters.
-/

/-- The parameters of a method are those of its details. -/
theorem PinOf.parameters_of_kind_eq
    {pin : Pin}
    {detail : MethodDetail}
    (isMethod : pin.kind = .method detail) :
    pin.parameters = detail.parameters := by
  unfold PinOf.parameters
  rw [isMethod]

/-- The identities of the parameters of several methods. -/
def parameterIds (pins : List Pin) : List PinId :=
  pins.flatMap fun pin => pin.parameters.map (·.id)

theorem parameterIds_cons
    (pin : Pin)
    (pins : List Pin) :
    parameterIds (pin :: pins) = pin.parameters.map (·.id) ++ parameterIds pins :=
  rfl

/-- The parameters of methods store the paths of these. -/
def ParametersStorePaths (pins : List Pin) : Prop :=
  ∀ pin ∈ pins, ∀ parameter ∈ pin.parameters, parameter.closure.path = pin.path

theorem ParametersStorePaths.cons
    {pin : Pin}
    {pins : List Pin}
    (stored : ParametersStorePaths pins)
    (ofPin : ∀ parameter ∈ pin.parameters, parameter.closure.path = pin.path) :
    ParametersStorePaths (pin :: pins) :=
  List.forall_mem_cons.mpr ⟨ofPin, stored⟩

/-- Pins of one source whose parameters lead back to them. -/
structure AreOwners (number : Nat) (pins : List Pin) : Prop where
  source_eq : ∀ id ∈ parameterIds pins, id.source = number
  nodup : (parameterIds pins).Nodup
  stored : ParametersStorePaths pins

namespace AreOwners

variable {number : Nat} {pins : List Pin}

/-- A pin without parameters owns none. -/
theorem cons
    {pin : Pin}
    (owners : AreOwners number pins)
    (noParameters : pin.parameters = []) :
    AreOwners number (pin :: pins) := by
  have sameIds : parameterIds (pin :: pins) = parameterIds pins := by
    rw [parameterIds_cons, noParameters, List.map_nil, List.nil_append]
  refine ⟨sameIds ▸ owners.source_eq, sameIds ▸ owners.nodup, owners.stored.cons ?_⟩
  intro parameter member
  rw [noParameters] at member
  cases member

/-- The order of the pins does not matter. -/
theorem reverse
    (owners : AreOwners number pins) :
    AreOwners number pins.reverse := by
  have rearranged : (parameterIds pins.reverse).Perm (parameterIds pins) :=
    (List.reverse_perm pins).flatMap_right _
  refine ⟨?_, rearranged.nodup_iff.mpr owners.nodup, ?_⟩
  · intro id member
    exact owners.source_eq id (rearranged.mem_iff.mp member)
  · intro pin member
    exact owners.stored pin (List.mem_reverse.mp member)

/-- The identity of a parameter names the source of its method. -/
theorem source_eq_of_mem
    {pin : Pin}
    {parameter : ParameterPin}
    (owners : AreOwners number pins)
    (member : pin ∈ pins)
    (ofPin : parameter ∈ pin.parameters) :
    parameter.id.source = number :=
  owners.source_eq parameter.id
    (List.mem_flatMap.mpr ⟨pin, member, List.mem_map_of_mem ofPin⟩)

/-- Two pins with a parameter of one identity are the same pin. -/
theorem eq_of_parameter_id_eq
    {first second : Pin}
    {parameter other : ParameterPin}
    (owners : AreOwners number pins)
    (isFirst : first ∈ pins)
    (isSecond : second ∈ pins)
    (ofFirst : parameter ∈ first.parameters)
    (ofSecond : other ∈ second.parameters)
    (sameId : parameter.id = other.id) :
    first = second := by
  by_contra different
  have apart := (List.nodup_flatMap.mp owners.nodup).2
  have : Std.Symm (Function.onFun List.Disjoint fun pin : Pin => pin.parameters.map (·.id)) :=
    ⟨fun _ _ => List.disjoint_symm⟩
  have disjoint := apart.forall isFirst isSecond different
  refine disjoint (List.mem_map_of_mem ofFirst) ?_
  rw [sameId]
  exact List.mem_map_of_mem ofSecond

end AreOwners

namespace Survey

/-- Numbers that are passed over are not used. -/
theorem HasUsed.mono
    {number next later : Nat}
    {ids : List PinId}
    (used : HasUsed number next ids)
    (notBefore : next ≤ later) :
    HasUsed number later ids where
  nodup := used.nodup
  source_eq := used.source_eq
  pos := used.pos
  lt id member := Nat.lt_of_lt_of_le (used.lt id member) notBefore

/--
The parameters that a survey has found, and those that are reserved for the next method, have
different numbers, and the ones that it has found store the paths of their methods.
-/
structure HasOwners (number : Nat) (reserved : List ParameterPin) (survey : Survey) : Prop where
  used : HasUsed number survey.nextSerial (reserved.map (·.id) ++ parameterIds survey.pins)
  next_pos : 0 < survey.nextSerial
  stored : ParametersStorePaths survey.pins

namespace HasOwners

variable {number : Nat} {reserved : List ParameterPin} {survey : Survey}

/-- Locals, scopes and visibilities do not matter, and numbers may be passed over. -/
theorem of_eq
    {other : Survey}
    (owned : survey.HasOwners number reserved)
    (samePins : other.pins = survey.pins)
    (notBefore : survey.nextSerial ≤ other.nextSerial) :
    other.HasOwners number reserved where
  used := samePins ▸ owned.used.mono notBefore
  next_pos := Nat.lt_of_lt_of_le owned.next_pos notBefore
  stored := samePins ▸ owned.stored

/-- The parameters of the next method get the next numbers in a row. -/
theorem reserve
    (owned : survey.HasOwners number [])
    {parameters : List ParameterPin}
    (locals : List Pin)
    (inARow : parameters.map (·.id) = (List.range parameters.length).map fun offset =>
      ⟨number, survey.nextSerial + offset⟩) :
    { survey with
      locals := locals
      nextSerial := survey.nextSerial + parameters.length }.HasOwners number parameters where
  used := by
    rw [inARow]
    exact owned.used.append owned.next_pos parameters.length
  next_pos := Nat.add_pos_left owned.next_pos _
  stored := owned.stored

/-- A pin is declared with the parameters that are reserved for it. -/
theorem declare
    {source : SourceLabel}
    (owned : survey.HasOwners source.number reserved)
    (name path : String)
    (closure : Closure)
    (span : Span)
    (comments : Option String)
    {kind : PinKind}
    (ofKind : ∀ pin : Pin, pin.kind = kind → pin.parameters = reserved)
    (ofPath : ∀ parameter ∈ reserved, parameter.closure.path = path) :
    (survey.declare source name path closure span comments kind).HasOwners source.number [] where
  used := by
    dsimp only [Survey.declare]
    rw [parameterIds_cons, ofKind _ rfl]
    exact owned.used.mono (Nat.le_succ _)
  next_pos := Nat.succ_pos _
  stored := by
    refine owned.stored.cons ?_
    rw [ofKind _ rfl]
    exact ofPath

/-- Everything but a method is declared without parameters. -/
theorem declareOther
    {source : SourceLabel}
    (owned : survey.HasOwners source.number [])
    (name path : String)
    (closure : Closure)
    (span : Span)
    (comments : Option String)
    {kind : PinKind}
    (notMethod : ∀ detail, kind ≠ .method detail) :
    (survey.declare source name path closure span comments kind).HasOwners source.number [] := by
  refine owned.declare name path closure span comments ?_ (List.forall_mem_nil _)
  rintro pin rfl
  unfold PinOf.parameters
  split
  · next detail isMethod =>
      exact absurd isMethod (notMethod detail)
  · rfl

/-- The parameters of a list get the next numbers in a row. -/
theorem declareParameters
    {source : SourceLabel}
    (owned : survey.HasOwners source.number [])
    (closure : Closure)
    (doc : Docstring)
    (presence hardScope : Span)
    (list : SyntaxNode) :
    (survey.declareParameters source closure doc presence hardScope list).2.HasOwners source.number
      (survey.declareParameters source closure doc presence hardScope list).1 := by
  dsimp only [Survey.declareParameters]
  refine owned.reserve _ ?inARow
  rw [parameterPins, List.length_map, List.length_zipIdx, List.range_eq_range',
    ← List.zipIdx_map_snd]
  simp only [List.map_map]
  rfl

/-- The parameters of a list get the closure that they are declared with. -/
theorem closure_of_mem_declareParameters
    {source : SourceLabel}
    {closure : Closure}
    {doc : Docstring}
    {presence hardScope : Span}
    {list : SyntaxNode}
    {parameter : ParameterPin}
    (member :
      parameter ∈ (survey.declareParameters source closure doc presence hardScope list).1) :
    parameter.closure = closure := by
  obtain ⟨listed, _, rfl⟩ := List.mem_map.mp member
  rfl

/-- The parameters of a definition get the closure of its body, which has the path of the method. -/
theorem openMethod?
    {source : SourceLabel}
    {opened : Survey}
    {region inner : Region}
    {node : SyntaxNode}
    {scope : Scope}
    (owned : survey.HasOwners source.number [])
    (entered : survey.openMethod? source region node scope = some (inner, opened)) :
    opened.HasOwners source.number [] := by
  cases named : node.name? with
  | none =>
      simp [Survey.openMethod?, named] at entered
  | some name =>
      simp only [Survey.openMethod?, named, Option.bind_eq_bind, Option.bind_some,
        Option.pure_def, Option.some.injEq, Prod.mk.injEq] at entered
      obtain ⟨-, rfl⟩ := entered
      split
      · next list _ =>
          refine ((owned.declareParameters _ _ _ _ list).declare _ _ _ _ _ ?ofKind ?ofPath).of_eq
            rfl le_rfl
          case ofKind =>
            exact fun _ => PinOf.parameters_of_kind_eq
          case ofPath =>
            intro parameter member
            rw [closure_of_mem_declareParameters member]
      · refine (owned.declare _ _ _ _ _ ?ofKind (List.forall_mem_nil _)).of_eq rfl le_rfl
        exact fun _ => PinOf.parameters_of_kind_eq

/-- The parameter of a writer is numbered in front of it, and has its path. -/
theorem declareWriter
    {source : SourceLabel}
    (owned : survey.HasOwners source.number [])
    (region : Region)
    (name : String)
    (span : Span)
    (comments : Option String) :
    (survey.declareWriter source region name span comments).HasOwners source.number [] := by
  unfold Survey.declareWriter
  dsimp only
  generalize sameValue : (PinOf.mk _ _ _ _ _ _ _ _ : ParameterPin) = value
  have withValue :
      { survey with nextSerial := survey.nextSerial + 1 }.HasOwners source.number [value] := by
    refine owned.reserve survey.locals ?_
    rw [← sameValue]
    rfl
  refine withValue.declare _ _ _ _ _ ?ofKind ?ofPath
  case ofKind =>
    exact fun _ => PinOf.parameters_of_kind_eq
  case ofPath =>
    intro parameter member
    rw [List.mem_singleton.mp member, ← sameValue]

/-- Another visibility changes neither the path of a method nor its parameters. -/
theorem setVisibility
    (owned : survey.HasOwners number [])
    (region : Region)
    (visibility : Visibility)
    (name : String) :
    (survey.setVisibility region visibility name).HasOwners number [] := by
  unfold Survey.setVisibility
  dsimp only
  generalize (fun pin : Pin => _) = isMeant
  have same :
      (setVisibilityOfFirst visibility isMeant survey.pins).map
          (fun pin => (pin.path, pin.parameters)) =
        survey.pins.map fun pin => (pin.path, pin.parameters) := by
    refine map_setVisibilityOfFirst_of_eq (fun pin detail visibility isMethod => ?_) _ _ _
    exact Prod.ext rfl (PinOf.parameters_of_kind_eq isMethod).symm
  have sameIds :
      parameterIds (setVisibilityOfFirst visibility isMeant survey.pins) =
        parameterIds survey.pins := by
    have ofPairs := congrArg (List.flatMap fun pair => pair.2.map (·.id)) same
    rw [List.flatMap_map, List.flatMap_map] at ofPairs
    exact ofPairs
  refine ⟨sameIds ▸ owned.used, owned.next_pos, ?_⟩
  intro pin member parameter ofPin
  have listed := List.mem_map_of_mem (f := fun pin => (pin.path, pin.parameters)) member
  rw [same] at listed
  obtain ⟨old, isOld, samePair⟩ := List.mem_map.mp listed
  obtain ⟨samePath, sameParameters⟩ := Prod.mk.inj samePair
  rw [← samePath]
  exact owned.stored old isOld parameter (sameParameters ▸ ofPin)

end HasOwners

/-- Every step of a survey keeps parameters with their methods. -/
theorem isKept_hasOwners
    (source : SourceLabel) :
    IsKept source (HasOwners source.number []) where
  withVisibility _ owned := owned.of_eq rfl le_rfl
  openHardScope _ owned := owned.of_eq rfl le_rfl
  declare name path closure span comments _ notMethod owned :=
    owned.declareOther name path closure span comments notMethod
  declareLocal _ _ _ _ owned := owned.of_eq rfl (Nat.le_succ _)
  declareParameters _ _ _ _ _ owned := owned.of_eq rfl (Nat.le_add_right _ _)
  openMethod? entered owned := owned.openMethod? entered
  declareReader _ _ _ _ owned :=
    owned.declare _ _ _ _ _ (fun _ => PinOf.parameters_of_kind_eq) (List.forall_mem_nil _)
  declareWriter region name span comments owned := owned.declareWriter region name span comments
  setVisibility region visibility name owned := owned.setVisibility region visibility name

/-- The methods of a program own their parameters. -/
theorem areOwners_ofProgram
    (source : SourceLabel)
    (root : SyntaxNode) :
    AreOwners source.number (ofProgram source root).pins := by
  have atStart : HasOwners source.number [] ⟨[], [], [root.span], .publicAccess, 1⟩ :=
    ⟨⟨List.nodup_nil, nofun, nofun, nofun⟩, Nat.zero_lt_one, nofun⟩
  have owned := (isKept_hasOwners source).visitWhere (.ofProgram root.span) (fun _ => true)
    root.children atStart
  exact ⟨owned.used.source_eq, owned.used.nodup, owned.stored⟩

end Survey

/-- The methods of the core library own their parameters. -/
theorem CoreLibrary.areOwners_pins :
    AreOwners 0 CoreLibrary.pins :=
  (Survey.areOwners_ofProgram ⟨filename, 0⟩ (Stub.Layout.program firstLine stubs)).reverse

/-- The methods of an outline own their parameters, and the program itself has none. -/
theorem Outline.areOwners_ofSource
    (number : Nat)
    (source : Source) :
    AreOwners number (Outline.ofSource number source).pins :=
  (Survey.areOwners_ofProgram ⟨source.filename, number⟩ source.root).reverse.cons rfl

end TagCheck
