import TagCheck.Proofs.Outline.Visiting

namespace TagCheck.Survey

/-!
# Invariants of a survey

A survey is built by few steps: a pin is declared, a scope is opened, a visibility is set.  What
every step keeps is kept by the walk over a whole tree.
-/

/-- A property of surveys that every step keeps. -/
structure IsKept (source : SourceLabel) (property : Survey → Prop) : Prop where
  withVisibility {survey : Survey} (visibility : Visibility) :
    property survey → property { survey with visibility }
  openHardScope {survey : Survey} (span : Span) :
    property survey → property (survey.openHardScope span)
  /-- Everything but a method is declared without parameters. -/
  declare {survey : Survey} (name path : String) (closure : Closure) (span : Span)
    (comments : Option String) {kind : PinKind} :
    (∀ detail, kind ≠ .method detail) → property survey →
      property (survey.declare source name path closure span comments kind)
  declareLocal {survey : Survey} (region : Region) (name : String) (binder : SyntaxNode)
    (assignment : Option SyntaxNode) :
    property survey → property (survey.declareLocal source region name binder assignment)
  declareParameters {survey : Survey} (closure : Closure) (doc : Docstring)
    (presence hardScope : Span) (list : SyntaxNode) :
    property survey →
      property (survey.declareParameters source closure doc presence hardScope list).2
  openMethod? {survey opened : Survey} {region inner : Region} {node : SyntaxNode}
    {scope : Scope} :
    survey.openMethod? source region node scope = some (inner, opened) → property survey →
      property opened
  declareReader {survey : Survey} (region : Region) (name : String) (span : Span)
    (comments : Option String) :
    property survey → property (survey.declareAttribute source region name [] span comments)
  declareWriter {survey : Survey} (region : Region) (name : String) (span : Span)
    (comments : Option String) :
    property survey → property (survey.declareWriter source region name span comments)
  setVisibility {survey : Survey} (region : Region) (visibility : Visibility) (name : String) :
    property survey → property (survey.setVisibility region visibility name)

namespace IsKept

variable {source : SourceLabel} {property : Survey → Prop}
variable (kept : IsKept source property)
include kept

/-- Opening a namespace declares it and opens its scope. -/
theorem openNamespace?
    {survey opened : Survey}
    {region inner : Region}
    {node : SyntaxNode}
    (entered : survey.openNamespace? source region node = some (inner, opened))
    (holds : property survey) :
    property opened := by
  cases defined : region.definedPath? node with
  | none =>
      simp [Survey.openNamespace?, defined] at entered
  | some path =>
      simp only [Survey.openNamespace?, defined, Option.bind_eq_bind, Option.bind_some,
        Option.pure_def, Option.some.injEq, Prod.mk.injEq] at entered
      obtain ⟨-, rfl⟩ := entered
      exact kept.openHardScope _ (kept.declare _ _ _ _ _ (by simp) holds)

theorem openSingletonClass?
    {survey opened : Survey}
    {region inner : Region}
    {node : SyntaxNode}
    (entered : survey.openSingletonClass? region node = some (inner, opened))
    (holds : property survey) :
    property opened := by
  unfold Survey.openSingletonClass? at entered
  split at entered
  · split at entered
    · cases entered
      exact kept.openHardScope _ holds
    · cases entered
  · cases entered

/-- Entering the body of a definition keeps what its declaration keeps. -/
theorem openDefinition?
    {survey opened : Survey}
    {region inner : Region}
    {node : SyntaxNode}
    (entered : survey.openDefinition? source region node = some (inner, opened))
    (holds : property survey) :
    property opened := by
  unfold Survey.openDefinition? at entered
  split at entered
  · exact kept.openNamespace? entered holds
  · exact kept.openNamespace? entered holds
  · exact kept.openSingletonClass? entered holds
  · exact kept.openMethod? entered holds
  · split at entered
    · split at entered
      · exact kept.openMethod? entered holds
      · cases entered
    · cases entered
  · cases entered

theorem openBlock
    {survey : Survey}
    (region : Region)
    (node : SyntaxNode)
    (holds : property survey) :
    property (survey.openBlock source region node).2 := by
  unfold Survey.openBlock
  dsimp only
  split
  · exact kept.declareParameters _ _ _ _ _ holds
  · exact holds

theorem declareTarget
    {survey : Survey}
    (region : Region)
    (node target : SyntaxNode)
    (holds : property survey) :
    property (survey.declareTarget source region node target) := by
  unfold Survey.declareTarget
  dsimp only
  split
  · exact kept.declareLocal _ _ _ _ holds
  · exact List.foldlRecOn _ _ holds fun _ holds name _ =>
      kept.declareLocal region name.text name none holds
  · exact kept.declare _ _ _ _ _ (by simp) holds
  · exact kept.declare _ _ _ _ _ (by simp) holds
  · exact kept.declare _ _ _ _ _ (by simp) holds
  · exact kept.declare _ _ _ _ _ (by simp) holds
  · exact holds

theorem declareReferences
    {survey : Survey}
    (region : Region)
    (kind : ReferenceKind)
    (arguments : List SyntaxNode)
    (holds : property survey) :
    property (survey.declareReferences source region kind arguments) :=
  List.foldlRecOn _ _ holds fun _ holds _ _ => kept.declare _ _ _ _ _ (by simp) holds

theorem declareAttributes
    {survey : Survey}
    (region : Region)
    (call : String)
    (arguments : List SyntaxNode)
    (comments : Option String)
    (holds : property survey) :
    property (survey.declareAttributes source region call arguments comments) := by
  refine List.foldlRecOn _ _ holds fun survey holds argument _ => ?_
  dsimp only
  split
  · exact holds
  · have withReader :
        property
          (if call != "attr_writer" then
            survey.declareAttribute source region (symbolName argument.text) [] argument.span
              comments
          else
            survey) := by
      split
      · exact kept.declareReader _ _ _ _ holds
      · exact holds
    split
    · exact kept.declareWriter _ _ _ _ withReader
    · exact withReader

theorem declareByCall
    {survey : Survey}
    (region : Region)
    (node : SyntaxNode)
    (holds : property survey) :
    property (survey.declareByCall source region node) := by
  unfold Survey.declareByCall
  split
  · exact kept.declareReferences _ _ _ holds
  · exact kept.declareReferences _ _ _ holds
  · exact kept.declareReferences _ _ _ holds
  · exact kept.declareAttributes _ _ _ _ holds
  · exact kept.declareAttributes _ _ _ _ holds
  · exact kept.declareAttributes _ _ _ _ holds
  · exact kept.declareAttributes _ _ _ _ holds
  · exact holds

theorem declareBound
    {survey : Survey}
    (region : Region)
    (names : List SyntaxNode)
    (binder : SyntaxNode)
    (holds : property survey) :
    property (survey.declareBound source region names binder) :=
  List.foldlRecOn _ _ holds fun _ holds name _ =>
    kept.declareLocal region name.text binder none holds

theorem declareLoopTargets
    {survey : Survey}
    (region : Region)
    (node : SyntaxNode)
    (holds : property survey) :
    property (survey.declareLoopTargets source region node) := by
  unfold Survey.declareLoopTargets
  split
  · exact kept.declareBound _ _ _ holds
  · exact holds

/-- Entering a node keeps what every step keeps. -/
theorem enter
    {survey : Survey}
    (region : Region)
    (node : SyntaxNode)
    (holds : property survey) :
    property (survey.enter source region node) := by
  unfold Survey.enter
  split
  case h_1 | h_2 | h_3 | h_4 | h_5 =>
    -- Definitions.
    split
    · next entered =>
        exact kept.openDefinition? entered holds
    · exact holds
  case h_6 | h_7 =>
    -- Assignments.
    split
    · split
      · exact kept.declareTarget _ _ _ holds
      · exact holds
    · exact holds
  case h_8 =>
    -- Calls.
    split
    · exact holds
    · split
      · exact kept.declareByCall _ _ holds
      · exact holds
  case h_9 | h_10 =>
    exact kept.openBlock region _ holds
  case h_11 =>
    exact kept.declareBound _ _ _ holds
  case h_12 =>
    exact kept.declareLoopTargets _ _ holds
  case h_13 =>
    exact holds

omit kept in
theorem visitEach
    {walked : List (Region × SyntaxNode)}
    (each : ∀ part ∈ walked, ∀ {survey : Survey}, property survey →
      property (Survey.visit source part.1 part.2 survey))
    {survey : Survey}
    (holds : property survey) :
    property (Survey.visitEach source walked survey) :=
  List.foldlRecOn _ _ holds fun _ holds part member => each part member holds

theorem visitArguments
    {region : Region}
    (visibility : Visibility)
    {arguments : List SyntaxNode}
    (each : ∀ argument ∈ arguments, argument.isMethodNameLiteral = false →
      ∀ {survey : Survey}, property survey → property (Survey.visit source region argument survey))
    {survey : Survey}
    (holds : property survey) :
    property (arguments.foldl (visitArgument source region visibility) survey) := by
  refine List.foldlRecOn _ _ holds fun survey holds argument member => ?_
  unfold visitArgument
  split
  · exact kept.setVisibility _ _ _ holds
  · next notLiteral =>
      exact kept.withVisibility _ (each argument member (Bool.eq_false_iff.mpr notLiteral)
        (kept.withVisibility visibility holds))

/-- What every step keeps is kept by the walk over a tree. -/
theorem visit
    (region : Region)
    (node : SyntaxNode)
    {survey : Survey}
    (holds : property survey) :
    property (Survey.visit source region node survey) := by
  induction region, node using Region.walkInduction generalizing survey with
  | step region node inductionHypothesis =>
      cases asked : region.argumentVisibility? node with
      | some visibility =>
          rw [visit_of_argumentVisibility? asked]
          exact kept.visitArguments visibility
            (fun argument member notLiteral => inductionHypothesis (region, argument)
              (Region.mem_walked_of_argumentVisibility? asked member notLiteral))
            holds
      | none =>
          rw [visit_of_argumentVisibility?_eq_none asked]
          exact kept.withVisibility _ (visitEach inductionHypothesis (kept.enter region node holds))

theorem visitWhere
    (region : Region)
    (isWalked : SyntaxNode → Bool)
    (nodes : List SyntaxNode)
    {survey : Survey}
    (holds : property survey) :
    property (Survey.visitWhere source region isWalked nodes survey) := by
  rw [visitWhere_eq]
  exact visitEach (fun part _ => kept.visit part.1 part.2) holds

end IsKept

end TagCheck.Survey
