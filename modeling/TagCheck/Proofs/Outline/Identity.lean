import Mathlib.Data.List.Nodup
import TagCheck.CoreLibrary.Basic
import TagCheck.Outline.Basic
import TagCheck.Proofs.Outline.Walk

namespace TagCheck

/-!
# Identities of pins

A survey numbers the pins of its source one after the other, parameters and locals included.  So
the identity of a pin tells it from all others, and two pins with one identity are the same pin.
-/

/-- Pins of one source, each with its own identity. -/
structure AreIdentified (number : Nat) (pins : List Pin) : Prop where
  source_eq : ∀ pin ∈ pins, pin.id.source = number
  eq_of_id_eq : ∀ first ∈ pins, ∀ second ∈ pins, first.id = second.id → first = second

namespace Survey

/-- The identities that a survey has used, each of them once. -/
structure HasUsed (number next : Nat) (ids : List PinId) : Prop where
  nodup : ids.Nodup
  source_eq : ∀ id ∈ ids, id.source = number
  pos : ∀ id ∈ ids, 0 < id.serial
  lt : ∀ id ∈ ids, id.serial < next

namespace HasUsed

variable {number next : Nat} {ids : List PinId}

/-- The order of the identities does not matter. -/
theorem perm
    {others : List PinId}
    (used : HasUsed number next ids)
    (rearranged : ids.Perm others) :
    HasUsed number next others where
  nodup := rearranged.nodup used.nodup
  source_eq := fun id member => used.source_eq id (rearranged.mem_iff.mpr member)
  pos := fun id member => used.pos id (rearranged.mem_iff.mpr member)
  lt := fun id member => used.lt id (rearranged.mem_iff.mpr member)

/-- The next numbers in a row are fresh. -/
theorem append
    (used : HasUsed number next ids)
    (positive : 0 < next)
    (count : Nat) :
    HasUsed number (next + count)
      ((List.range count).map (fun offset => ⟨number, next + offset⟩) ++ ids) where
  nodup := by
    refine List.nodup_append.mpr ⟨?_, used.nodup, ?_⟩
    · refine List.Nodup.map_on ?_ List.nodup_range
      intro first _ second _ sameId
      have sameSerial : next + first = next + second :=
        congrArg PinId.serial sameId
      omega
    · intro id fresh other member sameId
      obtain ⟨offset, _, rfl⟩ := List.mem_map.mp fresh
      have usedBefore := used.lt other member
      rw [← sameId] at usedBefore
      dsimp only at usedBefore
      omega
  source_eq := by
    intro id member
    rcases List.mem_append.mp member with fresh | old
    · obtain ⟨offset, _, rfl⟩ := List.mem_map.mp fresh
      rfl
    · exact used.source_eq id old
  pos := by
    intro id member
    rcases List.mem_append.mp member with fresh | old
    · obtain ⟨offset, _, rfl⟩ := List.mem_map.mp fresh
      dsimp only
      omega
    · exact used.pos id old
  lt := by
    intro id member
    rcases List.mem_append.mp member with fresh | old
    · obtain ⟨offset, inRange, rfl⟩ := List.mem_map.mp fresh
      have := List.mem_range.mp inRange
      dsimp only
      omega
    · have := used.lt id old
      omega

theorem cons
    (used : HasUsed number next ids)
    (positive : 0 < next) :
    HasUsed number (next + 1) (⟨number, next⟩ :: ids) :=
  used.append positive 1

end HasUsed

/--
The pins of a survey and the pins that methods and scopes bind have used different identities.
-/
structure IsNumberedWith (number : Nat) (survey : Survey) (bound : List Pin) : Prop where
  used : HasUsed number survey.nextSerial ((survey.pins ++ bound).map (·.id))
  next_pos : 0 < survey.nextSerial
  parameters : ∀ pin ∈ survey.pins, ∀ parameter ∈ pin.parameters, parameter.ofParameter ∈ bound
  locals : survey.locals ⊆ bound

/-- Every pin of a survey has its own number. -/
def IsNumbered (number : Nat) (survey : Survey) : Prop :=
  ∃ bound, survey.IsNumberedWith number bound

namespace IsNumberedWith

variable {number : Nat} {survey : Survey} {bound : List Pin}

/-- Scopes and visibilities have no numbers. -/
theorem of_eq
    {other : Survey}
    (numbered : survey.IsNumberedWith number bound)
    (samePins : other.pins = survey.pins)
    (sameLocals : other.locals = survey.locals)
    (sameNext : other.nextSerial = survey.nextSerial) :
    other.IsNumberedWith number bound where
  used := by rw [samePins, sameNext]; exact numbered.used
  next_pos := by rw [sameNext]; exact numbered.next_pos
  parameters := by rw [samePins]; exact numbered.parameters
  locals := by rw [sameLocals]; exact numbered.locals

/-- The next pin has a number of its own. -/
theorem declare
    {source : SourceLabel}
    (numbered : survey.IsNumberedWith source.number bound)
    (name path : String)
    (closure : Closure)
    (span : Span)
    (comments : Option String)
    {kind : PinKind}
    (parameters :
      ∀ detail, kind = .method detail → ∀ parameter ∈ detail.parameters,
        parameter.ofParameter ∈ bound) :
    (survey.declare source name path closure span comments kind).IsNumberedWith source.number
      bound where
  used := numbered.used.cons numbered.next_pos
  next_pos := Nat.succ_pos _
  parameters := by
    intro pin member parameter ofPin
    rcases List.mem_cons.mp member with rfl | old
    · cases kind with
      | method detail =>
          exact parameters detail rfl parameter ofPin
      | _ =>
          cases ofPin
    · exact numbered.parameters pin old parameter ofPin
  locals := numbered.locals

/-- Pins that are bound next, as locals or not, have numbers of their own. -/
theorem bind
    (numbered : survey.IsNumberedWith number bound)
    {count : Nat}
    {fresh : List Pin}
    (inARow :
      fresh.map (·.id) = (List.range count).map fun offset => ⟨number, survey.nextSerial + offset⟩)
    {locals : List Pin}
    (visible : locals ⊆ fresh ++ survey.locals) :
    { survey with locals := locals, nextSerial := survey.nextSerial + count }.IsNumberedWith number
      (fresh ++ bound) where
  used := by
    have withFresh := numbered.used.append numbered.next_pos count
    rw [← inARow, ← List.map_append] at withFresh
    refine withFresh.perm (List.Perm.map _ ?_)
    exact List.perm_append_comm_assoc fresh survey.pins bound
  next_pos := Nat.add_pos_left numbered.next_pos _
  parameters := fun pin member parameter ofPin =>
    List.mem_append_right _ (numbered.parameters pin member parameter ofPin)
  locals := by
    intro pin member
    rcases List.mem_append.mp (visible member) with new | old
    · exact List.mem_append_left _ new
    · exact List.mem_append_right _ (numbered.locals old)

theorem declareLocal
    {source : SourceLabel}
    (numbered : survey.IsNumberedWith source.number bound)
    (region : Region)
    (name : String)
    (binder : SyntaxNode)
    (assignment : Option SyntaxNode) :
    (survey.declareLocal source region name binder assignment).IsNumbered source.number :=
  ⟨[_] ++ bound, numbered.bind rfl (List.Subset.refl _)⟩

theorem declareParameters
    {source : SourceLabel}
    (numbered : survey.IsNumberedWith source.number bound)
    (closure : Closure)
    (doc : Docstring)
    (presence hardScope : Span)
    (list : SyntaxNode) :
    (survey.declareParameters source closure doc presence hardScope list).2.IsNumberedWith
      source.number
      ((survey.declareParameters source closure doc presence hardScope list).1.map .ofParameter ++
        bound) := by
  dsimp only [Survey.declareParameters]
  refine numbered.bind ?inARow ?visible
  case inARow =>
    rw [parameterPins, List.length_map, List.length_zipIdx, List.range_eq_range',
      ← List.zipIdx_map_snd]
    simp only [List.map_map]
    rfl
  case visible =>
    intro pin member
    simpa using member

theorem openMethod?
    {source : SourceLabel}
    (numbered : survey.IsNumberedWith source.number bound)
    {opened : Survey}
    {region inner : Region}
    {node : SyntaxNode}
    {scope : Scope}
    (entered : survey.openMethod? source region node scope = some (inner, opened)) :
    opened.IsNumbered source.number := by
  cases named : node.name? with
  | none =>
      simp [Survey.openMethod?, named] at entered
  | some name =>
      simp only [Survey.openMethod?, named, Option.bind_eq_bind, Option.bind_some,
        Option.pure_def, Option.some.injEq, Prod.mk.injEq] at entered
      obtain ⟨-, rfl⟩ := entered
      split
      · next list _ =>
          refine ⟨_, ((numbered.declareParameters _ _ _ _ list).declare _ _ _ _ _ ?_).of_eq
            rfl rfl rfl⟩
          intro detail sameKind parameter member
          cases sameKind
          exact List.mem_append_left _ (List.mem_map_of_mem member)
      · refine ⟨_, (numbered.declare _ _ _ _ _ ?_).of_eq rfl rfl rfl⟩
        intro detail sameKind parameter member
        cases sameKind
        cases member

theorem declareWriter
    {source : SourceLabel}
    (numbered : survey.IsNumberedWith source.number bound)
    (region : Region)
    (name : String)
    (span : Span)
    (comments : Option String) :
    (survey.declareWriter source region name span comments).IsNumbered source.number := by
  unfold Survey.declareWriter
  dsimp only
  generalize sameValue : (PinOf.mk _ _ _ _ _ _ _ _ : ParameterPin) = value
  have withValue :
      { survey with nextSerial := survey.nextSerial + 1 }.IsNumberedWith source.number
        ([value.ofParameter] ++ bound) := by
    refine numbered.bind ?_ (List.subset_append_right _ _)
    rw [← sameValue]
    rfl
  refine ⟨_, withValue.declare _ _ _ _ _ ?_⟩
  intro detail sameKind parameter member
  cases sameKind
  cases List.mem_singleton.mp member
  exact List.mem_append_left _ (List.mem_singleton.mpr rfl)

end IsNumberedWith

/-- Another visibility changes neither identities nor parameters. -/
theorem map_setVisibilityOfFirst
    (visibility : Visibility)
    (isMeant : Pin → Bool)
    (pins : List Pin) :
    (setVisibilityOfFirst visibility isMeant pins).map (fun pin => (pin.id, pin.parameters)) =
      pins.map fun pin => (pin.id, pin.parameters) := by
  induction pins with
  | nil =>
      rfl
  | cons pin rest inductionHypothesis =>
      unfold setVisibilityOfFirst
      split
      · split
        · next detail isMethod =>
            simp [PinOf.parameters, isMethod]
        · rfl
      · simp [inductionHypothesis]

theorem IsNumberedWith.setVisibility
    {number : Nat}
    {survey : Survey}
    {bound : List Pin}
    (numbered : survey.IsNumberedWith number bound)
    (region : Region)
    (visibility : Visibility)
    (name : String) :
    (survey.setVisibility region visibility name).IsNumberedWith number bound := by
  unfold Survey.setVisibility
  dsimp only
  generalize (fun pin : Pin => _) = isMeant
  have same := map_setVisibilityOfFirst visibility isMeant survey.pins
  have sameIds :
      (setVisibilityOfFirst visibility isMeant survey.pins).map (·.id) =
        survey.pins.map (·.id) := by
    have sameFirst := congrArg (List.map Prod.fst) same
    rw [List.map_map, List.map_map] at sameFirst
    exact sameFirst
  refine ⟨?_, numbered.next_pos, ?_, numbered.locals⟩
  · rw [List.map_append, sameIds, ← List.map_append]
    exact numbered.used
  · intro pin member parameter ofPin
    have listed :
        (pin.id, pin.parameters) ∈ survey.pins.map fun pin => (pin.id, pin.parameters) := by
      rw [← same]
      exact List.mem_map_of_mem member
    obtain ⟨old, oldMember, sameData⟩ := List.mem_map.mp listed
    have sameParameters : old.parameters = pin.parameters :=
      congrArg Prod.snd sameData
    rw [← sameParameters] at ofPin
    exact numbered.parameters old oldMember parameter ofPin

/-- Every step of a survey keeps the numbers of pins apart. -/
theorem isKept_isNumbered
    (source : SourceLabel) :
    IsKept source (IsNumbered source.number) where
  withVisibility _ := fun ⟨bound, numbered⟩ => ⟨bound, numbered.of_eq rfl rfl rfl⟩
  openHardScope _ := fun ⟨bound, numbered⟩ => ⟨bound, numbered.of_eq rfl rfl rfl⟩
  declare name path closure span comments _ := fun notMethod ⟨bound, numbered⟩ =>
    ⟨bound, numbered.declare name path closure span comments fun detail isMethod =>
      absurd isMethod (notMethod detail)⟩
  declareLocal region name binder assignment := fun ⟨_, numbered⟩ =>
    numbered.declareLocal region name binder assignment
  declareParameters closure doc presence hardScope list := fun ⟨_, numbered⟩ =>
    ⟨_, numbered.declareParameters closure doc presence hardScope list⟩
  openMethod? entered := fun ⟨_, numbered⟩ => numbered.openMethod? entered
  declareReader region name span comments := fun ⟨bound, numbered⟩ =>
    ⟨bound, numbered.declare _ _ _ _ _ (by rintro _ ⟨⟩ _ ⟨⟩)⟩
  declareWriter region name span comments := fun ⟨_, numbered⟩ =>
    numbered.declareWriter region name span comments
  setVisibility region visibility name := fun ⟨bound, numbered⟩ =>
    ⟨bound, numbered.setVisibility region visibility name⟩

/-- The survey of a program numbers its pins. -/
theorem isNumbered_ofProgram
    (source : SourceLabel)
    (root : SyntaxNode) :
    (ofProgram source root).IsNumbered source.number := by
  refine (isKept_isNumbered source).visitWhere _ _ root.children ⟨[], ?_⟩
  refine ⟨⟨List.nodup_nil, ?_, ?_, ?_⟩, Nat.zero_lt_one, ?_, List.Subset.refl []⟩
  all_goals
    intro item member
    cases member

/-- A pin is listed with its parameters. -/
theorem mem_flatMap_withParameters
    {pins : List Pin}
    {pin : Pin}
    (member : pin ∈ pins) :
    pin ∈ pins.flatMap (·.withParameters) :=
  List.mem_flatMap.mpr ⟨pin, member, List.mem_cons_self⟩

/-- Everything that a survey finds has a number that it has used. -/
theorem IsNumberedWith.mem
    {number : Nat}
    {survey : Survey}
    {bound : List Pin}
    (numbered : survey.IsNumberedWith number bound)
    {pin : Pin}
    (member : pin ∈ survey.pins.flatMap (·.withParameters) ++ survey.locals) :
    pin ∈ survey.pins ++ bound := by
  rcases List.mem_append.mp member with declared | isLocal
  · obtain ⟨owner, ownerMember, ofOwner⟩ := List.mem_flatMap.mp declared
    rcases List.mem_cons.mp ofOwner with rfl | isParameter
    · exact List.mem_append_left _ ownerMember
    · obtain ⟨parameter, parameterMember, rfl⟩ := List.mem_map.mp isParameter
      exact List.mem_append_right _ (numbered.parameters owner ownerMember parameter parameterMember)
  · exact List.mem_append_right _ (numbered.locals isLocal)

/-- Everything that the survey of a program finds is identified. -/
theorem areIdentified_ofProgram
    (source : SourceLabel)
    (root : SyntaxNode) :
    AreIdentified source.number
      ((ofProgram source root).pins.flatMap (·.withParameters) ++
        (ofProgram source root).locals) := by
  obtain ⟨bound, numbered⟩ := isNumbered_ofProgram source root
  constructor
  · intro pin member
    exact numbered.used.source_eq pin.id (List.mem_map_of_mem (numbered.mem member))
  · intro first firstMember second secondMember sameId
    exact List.inj_on_of_nodup_map numbered.used.nodup (numbered.mem firstMember)
      (numbered.mem secondMember) sameId

/-- Nothing that the survey of a program finds has the program's own number. -/
theorem serial_pos_ofProgram
    {source : SourceLabel}
    {root : SyntaxNode}
    {pin : Pin}
    (member :
      pin ∈ (ofProgram source root).pins.flatMap (·.withParameters) ++
        (ofProgram source root).locals) :
    0 < pin.id.serial := by
  obtain ⟨bound, numbered⟩ := isNumbered_ofProgram source root
  exact numbered.used.pos pin.id (List.mem_map_of_mem (numbered.mem member))

/-- The survey of a program finds no pin twice. -/
theorem nodup_pins_ofProgram
    (source : SourceLabel)
    (root : SyntaxNode) :
    (ofProgram source root).pins.Nodup := by
  obtain ⟨bound, numbered⟩ := isNumbered_ofProgram source root
  have nodup := numbered.used.nodup
  rw [List.map_append] at nodup
  exact (List.nodup_append.mp nodup).1.of_map

end Survey

namespace AreIdentified

/-- Fewer pins are identified as well. -/
theorem mono
    {number : Nat}
    {pins others : List Pin}
    (identified : AreIdentified number pins)
    (fewer : others ⊆ pins) :
    AreIdentified number others where
  source_eq pin member := identified.source_eq pin (fewer member)
  eq_of_id_eq first firstMember second secondMember :=
    identified.eq_of_id_eq first (fewer firstMember) second (fewer secondMember)

end AreIdentified

/-- The pins of the core library, with their parameters, are identified. -/
theorem CoreLibrary.areIdentified_pins :
    AreIdentified 0 (CoreLibrary.pins.flatMap (·.withParameters)) := by
  refine (Survey.areIdentified_ofProgram ⟨filename, 0⟩ (Stub.Layout.program firstLine stubs)).mono ?_
  intro pin member
  obtain ⟨owner, ownerMember, ofOwner⟩ := List.mem_flatMap.mp member
  exact List.mem_append_left _
    (List.mem_flatMap.mpr ⟨owner, List.mem_reverse.mp ownerMember, ofOwner⟩)

/-- The pins of an outline, with their parameters, and its locals are identified. -/
theorem Outline.areIdentified_ofSource
    (number : Nat)
    (source : Source) :
    AreIdentified number
      ((Outline.ofSource number source).pins.flatMap (·.withParameters) ++
        (Outline.ofSource number source).locals) := by
  have identified := Survey.areIdentified_ofProgram ⟨source.filename, number⟩ source.root
  have rootOrSurveyed :
      ∀ pin ∈ (Outline.ofSource number source).pins.flatMap (·.withParameters) ++
          (Outline.ofSource number source).locals,
        pin = (Outline.ofSource number source).rootPin ∨
          pin ∈ (Survey.ofProgram ⟨source.filename, number⟩ source.root).pins.flatMap
              (·.withParameters) ++
            (Survey.ofProgram ⟨source.filename, number⟩ source.root).locals := by
    intro pin member
    simpa [Outline.ofSource, Outline.pins, PinOf.withParameters, PinOf.parameters,
      Survey.rootPin, PinOf.declare, or_assoc] using member
  constructor
  · intro pin member
    rcases rootOrSurveyed pin member with rfl | surveyed
    · rfl
    · exact identified.source_eq pin surveyed
  · intro first firstMember second secondMember sameId
    -- The program's own pin has the serial zero, and all others have positive ones.
    rcases rootOrSurveyed first firstMember with rfl | firstSurveyed <;>
      rcases rootOrSurveyed second secondMember with rfl | secondSurveyed
    · rfl
    · have positive := Survey.serial_pos_ofProgram secondSurveyed
      rw [← sameId] at positive
      exact absurd positive (Nat.lt_irrefl 0)
    · have positive := Survey.serial_pos_ofProgram firstSurveyed
      rw [sameId] at positive
      exact absurd positive (Nat.lt_irrefl 0)
    · exact identified.eq_of_id_eq first firstSurveyed second secondSurveyed sameId

/-- An outline lists no pin twice: the program's own pin is apart from the ones inside. -/
theorem Outline.nodup_pins_ofSource
    (number : Nat)
    (source : Source) :
    (Outline.ofSource number source).pins.Nodup := by
  refine List.nodup_cons.mpr ⟨?_, List.nodup_reverse.mpr (Survey.nodup_pins_ofProgram _ _)⟩
  intro isInside
  have surveyed := Survey.mem_flatMap_withParameters (List.mem_reverse.mp isInside)
  exact Nat.lt_irrefl 0 (Survey.serial_pos_ofProgram (List.mem_append_left _ surveyed))

end TagCheck
