import TagCheck.CoreLibrary.Basic
import TagCheck.Proofs.Outline.Walk

namespace TagCheck

/-!
# Where pins are located

A survey locates all pins in the source that is surveyed, so the pins of the core library are known by
the name of their file.
-/

namespace Survey

/-- All pins of a survey, their parameters and the locals are located in one file. -/
structure IsLocatedIn (filename : String) (survey : Survey) : Prop where
  pins : ∀ pin ∈ survey.pins, pin.location.filename = filename
  parameters : ∀ pin ∈ survey.pins, ∀ parameter ∈ pin.parameters,
    parameter.location.filename = filename
  locals : ∀ pin ∈ survey.locals, pin.location.filename = filename

namespace IsLocatedIn

variable {filename : String} {source : SourceLabel} {survey : Survey}

/-- Scopes, visibilities and numbers do not matter. -/
theorem of_eq
    {other : Survey}
    (located : survey.IsLocatedIn filename)
    (samePins : other.pins = survey.pins)
    (sameLocals : other.locals = survey.locals) :
    other.IsLocatedIn filename where
  pins := samePins ▸ located.pins
  parameters := samePins ▸ located.parameters
  locals := sameLocals ▸ located.locals

theorem declare
    (located : survey.IsLocatedIn source.filename)
    (name path : String)
    (closure : Closure)
    (span : Span)
    (comments : Option String)
    {kind : PinKind}
    (parameters : ∀ detail, kind = .method detail → ∀ parameter ∈ detail.parameters,
      parameter.location.filename = source.filename) :
    (survey.declare source name path closure span comments kind).IsLocatedIn source.filename where
  pins := by
    intro pin member
    rcases List.mem_cons.mp member with rfl | old
    · rfl
    · exact located.pins pin old
  parameters := by
    intro pin member parameter ofPin
    rcases List.mem_cons.mp member with rfl | old
    · cases kind with
      | method detail =>
          exact parameters detail rfl parameter ofPin
      | _ =>
          cases ofPin
    · exact located.parameters pin old parameter ofPin
  locals := located.locals

theorem declareLocal
    (located : survey.IsLocatedIn source.filename)
    (region : Region)
    (name : String)
    (binder : SyntaxNode)
    (assignment : Option SyntaxNode) :
    (survey.declareLocal source region name binder assignment).IsLocatedIn source.filename where
  pins := located.pins
  parameters := located.parameters
  locals := by
    intro pin member
    rcases List.mem_cons.mp member with rfl | old
    · rfl
    · exact located.locals pin old

/-- The pins of parameters are located in the source. -/
theorem filename_of_mem_parameterPins
    {closure : Closure}
    {doc : Docstring}
    {presence hardScope : Span}
    {list : SyntaxNode} :
    ∀ parameter ∈ survey.parameterPins source closure doc presence hardScope list,
      parameter.location.filename = source.filename := by
  intro parameter member
  obtain ⟨entry, -, rfl⟩ := List.mem_map.mp member
  rfl

theorem declareParameters
    (located : survey.IsLocatedIn source.filename)
    (closure : Closure)
    (doc : Docstring)
    (presence hardScope : Span)
    (list : SyntaxNode) :
    (survey.declareParameters source closure doc presence hardScope list).2.IsLocatedIn
      source.filename where
  pins := located.pins
  parameters := located.parameters
  locals := by
    intro pin member
    rcases List.mem_append.mp member with new | old
    · obtain ⟨parameter, isParameter, rfl⟩ := List.mem_map.mp (List.mem_reverse.mp new)
      exact filename_of_mem_parameterPins parameter isParameter
    · exact located.locals pin old

theorem openMethod?
    (located : survey.IsLocatedIn source.filename)
    {opened : Survey}
    {region inner : Region}
    {node : SyntaxNode}
    {scope : Scope}
    (entered : survey.openMethod? source region node scope = some (inner, opened)) :
    opened.IsLocatedIn source.filename := by
  cases named : node.name? with
  | none =>
      simp [Survey.openMethod?, named] at entered
  | some name =>
      simp only [Survey.openMethod?, named, Option.bind_eq_bind, Option.bind_some,
        Option.pure_def, Option.some.injEq, Prod.mk.injEq] at entered
      obtain ⟨-, rfl⟩ := entered
      split
      · next list _ =>
          refine ((located.declareParameters _ _ _ _ list).declare _ _ _ _ _ ?_).of_eq rfl rfl
          rintro detail ⟨⟩ parameter member
          exact filename_of_mem_parameterPins parameter member
      · refine (located.declare _ _ _ _ _ ?_).of_eq rfl rfl
        rintro detail ⟨⟩ parameter ⟨⟩

theorem declareWriter
    (located : survey.IsLocatedIn source.filename)
    (region : Region)
    (name : String)
    (span : Span)
    (comments : Option String) :
    (survey.declareWriter source region name span comments).IsLocatedIn source.filename := by
  have numbered : { survey with nextSerial := survey.nextSerial + 1 }.IsLocatedIn source.filename :=
    located.of_eq rfl rfl
  refine numbered.declare _ _ _ _ _ ?_
  rintro detail ⟨⟩ parameter member
  cases List.mem_singleton.mp member
  rfl

end IsLocatedIn

/-- Another visibility changes neither locations nor parameters. -/
theorem exists_of_mem_setVisibilityOfFirst
    {visibility : Visibility}
    {isMeant : Pin → Bool}
    {pins : List Pin}
    {pin : Pin}
    (member : pin ∈ setVisibilityOfFirst visibility isMeant pins) :
    ∃ old ∈ pins, pin.location = old.location ∧ pin.parameters = old.parameters := by
  induction pins with
  | nil =>
      cases member
  | cons first rest inductionHypothesis =>
      unfold setVisibilityOfFirst at member
      split at member
      · split at member
        · next detail isMethod =>
            rcases List.mem_cons.mp member with rfl | isRest
            · exact ⟨first, List.mem_cons_self, rfl, by simp [PinOf.parameters, isMethod]⟩
            · exact ⟨pin, List.mem_cons_of_mem _ isRest, rfl, rfl⟩
        · exact ⟨pin, member, rfl, rfl⟩
      · rcases List.mem_cons.mp member with rfl | isRest
        · exact ⟨pin, List.mem_cons_self, rfl, rfl⟩
        · obtain ⟨old, isOld, same⟩ := inductionHypothesis isRest
          exact ⟨old, List.mem_cons_of_mem _ isOld, same⟩

/-- Every step of a survey locates pins in the source. -/
theorem isKept_isLocatedIn
    (source : SourceLabel) :
    IsKept source (IsLocatedIn source.filename) where
  withVisibility _ located := located.of_eq rfl rfl
  openHardScope _ located := located.of_eq rfl rfl
  declare name path closure span comments _ notMethod located :=
    located.declare name path closure span comments fun detail isMethod =>
      absurd isMethod (notMethod detail)
  declareLocal region name binder assignment located :=
    located.declareLocal region name binder assignment
  declareParameters closure doc presence hardScope list located :=
    located.declareParameters closure doc presence hardScope list
  openMethod? entered located := located.openMethod? entered
  declareReader region name span comments located :=
    located.declare _ _ _ _ _ (by rintro _ ⟨⟩ _ ⟨⟩)
  declareWriter region name span comments located :=
    located.declareWriter region name span comments
  setVisibility region visibility name located :=
    { pins := by
        intro pin member
        obtain ⟨old, isOld, sameLocation, -⟩ := exists_of_mem_setVisibilityOfFirst member
        exact sameLocation ▸ located.pins old isOld
      parameters := by
        intro pin member
        obtain ⟨old, isOld, -, sameParameters⟩ := exists_of_mem_setVisibilityOfFirst member
        exact sameParameters ▸ located.parameters old isOld
      locals := located.locals }

theorem isLocatedIn_ofProgram
    (source : SourceLabel)
    (root : SyntaxNode) :
    (ofProgram source root).IsLocatedIn source.filename :=
  (isKept_isLocatedIn source).visitWhere _ _ root.children ⟨nofun, nofun, nofun⟩

end Survey

/-- The pins of the core library and their parameters are located in its file. -/
theorem CoreLibrary.filename_of_mem_pins :
    ∀ pin ∈ CoreLibrary.pins.flatMap (·.withParameters), pin.location.filename = filename := by
  intro pin member
  have located := Survey.isLocatedIn_ofProgram ⟨filename, 0⟩ (Stub.Layout.program firstLine stubs)
  obtain ⟨owner, isOwner, ofOwner⟩ := List.mem_flatMap.mp member
  have surveyed := List.mem_reverse.mp isOwner
  rcases List.mem_cons.mp ofOwner with rfl | isParameter
  · exact located.pins pin surveyed
  · obtain ⟨parameter, listed, rfl⟩ := List.mem_map.mp isParameter
    exact located.parameters owner surveyed parameter listed

end TagCheck
