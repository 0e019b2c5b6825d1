import TagCheck.Proofs.Outline.Listing

namespace TagCheck

/-!
# What a node declares

Three questions about a source are answered by spans: which locals are visible at a position, which
definition code there is inside of, and which hard scope bounds its locals.  What a node contributes
to each of the three can be read off the node and its region, and a survey lists these contributions.
-/

/-- A word that code binds as a local variable or as a parameter. -/
structure Binding where
  name : String
  span : Span
  scope : LocalScope
  /-- The value that is assigned to it, if it is known. -/
  value : Option SyntaxNode

namespace Binding

/-- What a local or a parameter was bound by. -/
def ofPin? (pin : Pin) : Option Binding :=
  pin.localScope?.map fun scope => ⟨pin.name, pin.location.span, scope, pin.assignment?⟩

end Binding

/-- A definition that code can be inside of, and the closure of that code. -/
structure Frame where
  span : Span
  closure : Closure

namespace Frame

/-- The frame that a pin stands for; only pins that code can be inside of stand for one. -/
def ofPin? (pin : Pin) : Option Frame :=
  if Outline.isEnclosing pin then some ⟨pin.location.span, pin.innerClosure⟩ else none

end Frame

/-- The closure as a pin gives it: a namespace without a name is the root. -/
def Closure.orRoot (closure : Closure) : Closure :=
  if closure.path = "" then .root else closure

namespace SyntaxNode

/-- The word that names a parameter; a plain parameter is a word itself. -/
def parameterWord (parameter : SyntaxNode) : SyntaxNode :=
  parameter.nameNode?.getD parameter

/-- What a parameter list binds, each with the word that names it. -/
def parameterBindings (list : SyntaxNode) (presence hardScope : Span) :
    List (SyntaxNode × Binding) :=
  list.children.flatMap fun entry =>
    entry.boundParameters.map fun (name, _, parameter) =>
      (parameter.parameterWord,
        ⟨name, parameter.span, ⟨presence, hardScope, presence.start⟩, none⟩)

end SyntaxNode

namespace Region

/-- What a word binds that becomes visible behind its binder. -/
def bindingAt (region : Region) (word binder : SyntaxNode) (value : Option SyntaxNode) :
    SyntaxNode × Binding :=
  (word, ⟨word.text, binder.span, ⟨region.presence, region.hardScope, binder.span.stop⟩, value⟩)

/-- What an assignment binds on its left. -/
def targetBindings (region : Region) (node target : SyntaxNode) : List (SyntaxNode × Binding) :=
  match target.kind with
  | .identifier => [region.bindingAt target node (node.child? .right)]
  | .leftAssignmentList => target.identifiers.map fun word => region.bindingAt word word none
  | _ => []

/-- A target that is walked binds nothing. -/
theorem targetBindings_eq_nil
    {region : Region}
    {node target : SyntaxNode}
    (notDeclared : Survey.isDeclaredTarget target.kind = false) :
    region.targetBindings node target = [] := by
  unfold targetBindings
  split
  · next isWord =>
      rw [isWord] at notDeclared
      cases notDeclared
  · next isList =>
      rw [isList] at notDeclared
      cases notDeclared
  · rfl

/-- What a node binds itself, each with the word that names it. -/
def bindings (region : Region) (node : SyntaxNode) : List (SyntaxNode × Binding) :=
  let parameters (hardScope : Span) : List (SyntaxNode × Binding) :=
    (node.child? .parameters).toList.flatMap (·.parameterBindings node.span hardScope)
  match node.kind with
  | .method | .singletonMethod =>
      if (region.bodyOf? node).isSome then parameters node.span else []
  | .assignment | .operatorAssignment =>
      (node.child? .left).toList.flatMap (region.targetBindings node)
  | .block | .lambda => parameters region.hardScope
  | .other "exception_variable" =>
      node.identifiers.map fun word => region.bindingAt word node none
  | .other "for" =>
      (node.child? .pattern).toList.flatMap fun pattern =>
        pattern.loopTargets.map fun word => region.bindingAt word pattern none
  | _ => []

/-- The frame of the body of a named definition. -/
def frames (region : Region) (node : SyntaxNode) : List Frame :=
  if node.kind = .singletonClass then
    []
  else
    (region.bodyOf? node).toList.map fun inner => ⟨node.span, inner.closure.orRoot⟩

/-- The hard scope of the body of a definition. -/
def hardScopes (region : Region) (node : SyntaxNode) : List Span :=
  (region.bodyOf? node).toList.map fun _ => node.span

end Region

/-- The path of a method is not empty, for it has a number sign or a point in it. -/
theorem methodPath_ne_empty
    (namespacePath name : String)
    (scope : Scope) :
    methodPath namespacePath name scope ≠ "" := by
  cases scope <;> simp [methodPath]

namespace Survey

/-- Entering a definition whose body is walked opens the definition. -/
theorem enter_of_openDefinition?
    {survey opened : Survey}
    {source : SourceLabel}
    {region inner : Region}
    {node : SyntaxNode}
    (entered : survey.openDefinition? source region node = some (inner, opened)) :
    survey.enter source region node = opened := by
  have body : region.bodyOf? node = some inner := by
    rw [← map_fst_openDefinition? survey source, entered]
    rfl
  unfold Region.bodyOf? at body
  unfold enter
  rw [entered]
  split at body
  case h_6 => cases body
  all_goals
    next isDefinition =>
      rw [isDefinition]

/-- What a survey knows about locals, frames and hard scopes grows by these. -/
structure Adds (before after : Survey) (bindings : List Binding) (frames : List Frame)
    (hardScopes : List Span) : Prop where
  locals : after.locals.reverse.map Binding.ofPin? =
    before.locals.reverse.map Binding.ofPin? ++ bindings.map some
  pins : after.pins.reverse.filterMap Frame.ofPin? =
    before.pins.reverse.filterMap Frame.ofPin? ++ frames
  hardScopes : after.hardScopes = before.hardScopes ++ hardScopes

namespace Adds

variable {survey : Survey}

theorem refl
    (survey : Survey) :
    Adds survey survey [] [] [] :=
  ⟨by simp, by simp, by simp⟩

theorem trans
    {middle after : Survey}
    {bindings others : List Binding}
    {frames otherFrames : List Frame}
    {hardScopes otherScopes : List Span}
    (first : Adds survey middle bindings frames hardScopes)
    (second : Adds middle after others otherFrames otherScopes) :
    Adds survey after (bindings ++ others) (frames ++ otherFrames)
      (hardScopes ++ otherScopes) where
  locals := by rw [second.locals, first.locals, List.map_append, List.append_assoc]
  pins := by rw [second.pins, first.pins, List.append_assoc]
  hardScopes := by rw [second.hardScopes, first.hardScopes, List.append_assoc]

/-- What is done for one item after the other adds up. -/
theorem foldl
    {item : Type}
    {step : Survey → item → Survey}
    {bindings : item → List Binding}
    {items : List item}
    (each : ∀ survey, ∀ next ∈ items, Adds survey (step survey next) (bindings next) [] [])
    (survey : Survey) :
    Adds survey (items.foldl step survey) (items.flatMap bindings) [] [] := by
  induction items generalizing survey with
  | nil =>
      exact refl survey
  | cons first rest inductionHypothesis =>
      exact (each survey first List.mem_cons_self).trans
        (inductionHypothesis (fun survey next member =>
          each survey next (List.mem_cons_of_mem _ member)) _)

/-- A pin is declared behind all others. -/
theorem declare
    (survey : Survey)
    (source : SourceLabel)
    (name path : String)
    (closure : Closure)
    (span : Span)
    (comments : Option String)
    (kind : PinKind) :
    Adds survey (survey.declare source name path closure span comments kind) []
      (Frame.ofPin? (.declare ⟨source.number, survey.nextSerial⟩ name path closure
        ⟨source.filename, span⟩ comments kind)).toList [] where
  locals := by simp [Survey.declare]
  pins := by
    simp only [Survey.declare, List.reverse_cons, List.filterMap_append, List.filterMap_cons,
      List.filterMap_nil]
    cases Frame.ofPin? _ <;> rfl
  hardScopes := by simp [Survey.declare]

theorem declareLocal
    (survey : Survey)
    (source : SourceLabel)
    (region : Region)
    (word binder : SyntaxNode)
    (value : Option SyntaxNode) :
    Adds survey (survey.declareLocal source region word.text binder value)
      [(region.bindingAt word binder value).2] [] [] where
  locals := by
    simp [Survey.declareLocal, Binding.ofPin?, PinOf.declare, PinOf.localScope?,
      PinOf.assignment?, Region.bindingAt]
  pins := by simp [Survey.declareLocal]
  hardScopes := by simp [Survey.declareLocal]

theorem declareBound
    (survey : Survey)
    (source : SourceLabel)
    (region : Region)
    (words : List SyntaxNode)
    (binder : SyntaxNode) :
    Adds survey (survey.declareBound source region words binder)
      ((words.map fun word => region.bindingAt word binder none).map Prod.snd) [] [] := by
  rw [List.map_map, ← List.flatMap_singleton' (words.map _), List.flatMap_map]
  exact foldl (fun survey word _ => declareLocal survey source region word binder none) survey

theorem declareLoopTargets
    (survey : Survey)
    (source : SourceLabel)
    (region : Region)
    (node : SyntaxNode) :
    Adds survey (survey.declareLoopTargets source region node)
      (((node.child? .pattern).toList.flatMap fun pattern =>
        pattern.loopTargets.map fun word => region.bindingAt word pattern none).map Prod.snd)
      [] [] := by
  unfold Survey.declareLoopTargets
  cases node.child? .pattern with
  | none =>
      exact refl survey
  | some pattern =>
      rw [Option.toList_some, List.flatMap_singleton]
      exact declareBound survey source region pattern.loopTargets pattern

theorem declareParameters
    (survey : Survey)
    (source : SourceLabel)
    (closure : Closure)
    (doc : Docstring)
    (presence hardScope : Span)
    (list : SyntaxNode) :
    Adds survey (survey.declareParameters source closure doc presence hardScope list).2
      ((list.parameterBindings presence hardScope).map Prod.snd) [] [] where
  locals := by
    have withoutOffsets :
        (survey.parameterPins source closure doc presence hardScope list).map
            (fun pin => Binding.ofPin? pin.ofParameter) =
          list.listedParameters.map fun (name, _, span, _) =>
            some ⟨name, span, ⟨presence, hardScope, presence.start⟩, none⟩ := by
      rw [parameterPins, List.map_map, ← List.zipIdx_map_fst 0 list.listedParameters, List.map_map,
        List.zipIdx_map_fst]
      rfl
    have withoutIndices :
        (list.listedParameters.map fun (name, _, span, _) =>
            some (Binding.mk name span ⟨presence, hardScope, presence.start⟩ none)) =
          ((list.parameterBindings presence hardScope).map Prod.snd).map some := by
      rw [SyntaxNode.listedParameters, SyntaxNode.parameterBindings,
        ← List.zipIdx_map_fst 0 list.children, List.flatMap_map, List.zipIdx_map_fst]
      simp only [List.map_flatMap, List.map_map]
      rfl
    rw [← withoutIndices, ← withoutOffsets]
    simp [Survey.declareParameters]
  pins := by simp [Survey.declareParameters]
  hardScopes := by simp [Survey.declareParameters]

/-- The parameters of a node, if it has a list of them. -/
theorem declareListed
    (survey : Survey)
    (source : SourceLabel)
    (closure : Closure)
    (doc : Docstring)
    (presence hardScope : Span)
    (list? : Option SyntaxNode) :
    Adds survey
      (match list? with
        | some list => (survey.declareParameters source closure doc presence hardScope list).2
        | none => survey)
      ((list?.toList.flatMap (·.parameterBindings presence hardScope)).map Prod.snd) [] [] := by
  cases list? with
  | none =>
      exact refl survey
  | some list =>
      simpa using declareParameters survey source closure doc presence hardScope list

theorem openHardScope
    (survey : Survey)
    (span : Span) :
    Adds survey (survey.openHardScope span) [] [] [span] :=
  ⟨by simp [Survey.openHardScope], by simp [Survey.openHardScope], rfl⟩

theorem openNamespace?
    {survey opened : Survey}
    {source : SourceLabel}
    {region inner : Region}
    {node : SyntaxNode}
    (entered : survey.openNamespace? source region node = some (inner, opened)) :
    Adds survey opened [] [⟨node.span, inner.closure.orRoot⟩] [node.span] := by
  cases defined : region.definedPath? node with
  | none =>
      simp [Survey.openNamespace?, defined] at entered
  | some path =>
      simp only [Survey.openNamespace?, defined, Option.bind_eq_bind, Option.bind_some,
        Option.pure_def, Option.some.injEq, Prod.mk.injEq] at entered
      obtain ⟨rfl, rfl⟩ := entered
      have sameClosure :
          (⟨path, path, if path = "" then .instanceLevel else .classLevel⟩ : Closure) =
            (region.ofNamespace path node.span).closure.orRoot := by
        by_cases isRoot : path = "" <;>
          simp [Region.ofNamespace, Closure.orRoot, Closure.root, isRoot]
      rw [← sameClosure]
      exact (declare survey source _ path _ node.span node.comments _).trans
        (openHardScope _ node.span)

theorem openMethod?
    {survey opened : Survey}
    {source : SourceLabel}
    {region inner : Region}
    {node : SyntaxNode}
    {scope : Scope}
    (entered : survey.openMethod? source region node scope = some (inner, opened)) :
    Adds survey opened
      (((node.child? .parameters).toList.flatMap
        (·.parameterBindings node.span node.span)).map Prod.snd)
      [⟨node.span, inner.closure.orRoot⟩] [node.span] := by
  cases named : node.name? with
  | none =>
      simp [Survey.openMethod?, named] at entered
  | some name =>
      simp only [Survey.openMethod?, named, Option.bind_eq_bind, Option.bind_some,
        Option.pure_def, Option.some.injEq, Prod.mk.injEq] at entered
      obtain ⟨rfl, rfl⟩ := entered
      have sameClosure :
          (region.ofMethod (region.methodClosure name scope) node.span).closure.orRoot =
            region.methodClosure name scope :=
        if_neg (methodPath_ne_empty _ name scope)
      rw [sameClosure]
      cases node.child? .parameters with
      | none =>
          dsimp only
          exact (declare survey source name _ _ node.span node.comments _).trans
            (openHardScope _ node.span)
      | some list =>
          rw [Option.toList_some, List.flatMap_singleton, ← List.append_nil (List.map Prod.snd _)]
          exact (declareParameters survey source _ _ node.span node.span list).trans
            ((declare _ source name _ _ node.span node.comments _).trans
              (openHardScope _ node.span))

theorem openSingletonClass?
    {survey opened : Survey}
    {region inner : Region}
    {node : SyntaxNode}
    (entered : survey.openSingletonClass? region node = some (inner, opened)) :
    Adds survey opened [] [] [node.span] := by
  unfold Survey.openSingletonClass? at entered
  split at entered
  · split at entered
    · cases entered
      exact openHardScope survey node.span
    · cases entered
  · cases entered

/-- Opening a definition adds what the definition binds, its frame and its hard scope. -/
theorem openDefinition?
    {survey opened : Survey}
    {source : SourceLabel}
    {region inner : Region}
    {node : SyntaxNode}
    (entered : survey.openDefinition? source region node = some (inner, opened)) :
    Adds survey opened ((region.bindings node).map Prod.snd) (region.frames node)
      (region.hardScopes node) := by
  have body : region.bodyOf? node = some inner := by
    rw [← map_fst_openDefinition? survey source, entered]
    rfl
  unfold Survey.openDefinition? at entered
  unfold Region.bindings Region.frames Region.hardScopes
  rw [body]
  split at entered
  · next isClass =>
      simpa [isClass] using openNamespace? entered
  · next isModule =>
      simpa [isModule] using openNamespace? entered
  · next isSingleton =>
      simpa [isSingleton] using openSingletonClass? entered
  · next isMethod =>
      simpa [isMethod] using openMethod? entered
  · next isMethod =>
      split at entered
      · split at entered
        · simpa [isMethod] using openMethod? entered
        · cases entered
      · cases entered
  · cases entered

theorem openBlock
    (survey : Survey)
    (source : SourceLabel)
    (region : Region)
    (node : SyntaxNode) :
    Adds survey (survey.openBlock source region node).2
      (((node.child? .parameters).toList.flatMap
        (·.parameterBindings node.span region.hardScope)).map Prod.snd) [] [] :=
  declareListed survey source region.closure .empty node.span region.hardScope _

/-- Nothing is inside of a declaration that is neither a namespace nor a method. -/
theorem declareApart
    (survey : Survey)
    (source : SourceLabel)
    (name path : String)
    (closure : Closure)
    (span : Span)
    (comments : Option String)
    {kind : PinKind}
    (apart : Outline.isEnclosing (.declare ⟨source.number, survey.nextSerial⟩ name path closure
      ⟨source.filename, span⟩ comments kind) = false) :
    Adds survey (survey.declare source name path closure span comments kind) [] [] [] := by
  have declared := declare survey source name path closure span comments kind
  rw [Frame.ofPin?, apart] at declared
  exact declared

theorem declareTarget
    (survey : Survey)
    (source : SourceLabel)
    (region : Region)
    (node target : SyntaxNode) :
    Adds survey (survey.declareTarget source region node target)
      ((region.targetBindings node target).map Prod.snd) [] [] := by
  unfold Survey.declareTarget Region.targetBindings
  dsimp only
  split
  · next isWord =>
      rw [isWord]
      exact declareLocal survey source region target node _
  · next isList =>
      rw [isList]
      dsimp only
      rw [List.map_map, ← List.flatMap_singleton' (List.map _ _), List.flatMap_map]
      exact foldl (fun survey word _ => declareLocal survey source region word word none) survey
  case h_7 =>
    split
    · contradiction
    · contradiction
    · exact refl survey
  all_goals
    next isVariable =>
      rw [isVariable]
      exact declareApart _ _ _ _ _ _ _ (by rfl)

theorem declareReferences
    (survey : Survey)
    (source : SourceLabel)
    (region : Region)
    (kind : ReferenceKind)
    (arguments : List SyntaxNode) :
    Adds survey (survey.declareReferences source region kind arguments) [] [] [] :=
  List.foldlRecOn (motive := fun after => Adds survey after [] [] []) _ _ (refl survey)
    fun _ adds _ _ => adds.trans (declareApart _ _ _ _ _ _ _ (by rfl))

theorem declareAttribute
    (survey : Survey)
    (source : SourceLabel)
    (region : Region)
    (name : String)
    (parameters : List ParameterPin)
    (span : Span)
    (comments : Option String) :
    Adds survey (survey.declareAttribute source region name parameters span comments) [] [] [] :=
  declareApart _ _ _ _ _ _ _ (by rfl)

theorem declareWriter
    (survey : Survey)
    (source : SourceLabel)
    (region : Region)
    (name : String)
    (span : Span)
    (comments : Option String) :
    Adds survey (survey.declareWriter source region name span comments) [] [] [] := by
  have numbered : Adds survey { survey with nextSerial := survey.nextSerial + 1 } [] [] [] :=
    ⟨by simp, by simp, by simp⟩
  exact numbered.trans (declareAttribute _ source region _ _ span comments)

theorem declareAttributes
    (survey : Survey)
    (source : SourceLabel)
    (region : Region)
    (call : String)
    (arguments : List SyntaxNode)
    (comments : Option String) :
    Adds survey (survey.declareAttributes source region call arguments comments) [] [] [] := by
  refine List.foldlRecOn (motive := fun after => Adds survey after [] [] []) _ _ (refl survey)
    fun survey adds argument _ => adds.trans ?_
  dsimp only
  split
  · exact refl survey
  · have withReader :
        Adds survey
          (if call != "attr_writer" then
            survey.declareAttribute source region (symbolName argument.text) [] argument.span
              comments
          else
            survey) [] [] [] := by
      split
      · exact declareAttribute _ _ _ _ _ _ _
      · exact refl survey
    split
    · exact withReader.trans (declareWriter _ _ _ _ _ _)
    · exact withReader

theorem declareByCall
    (survey : Survey)
    (source : SourceLabel)
    (region : Region)
    (node : SyntaxNode) :
    Adds survey (survey.declareByCall source region node) [] [] [] := by
  unfold Survey.declareByCall
  split
  · exact declareReferences _ _ _ _ _
  · exact declareReferences _ _ _ _ _
  · exact declareReferences _ _ _ _ _
  · exact declareAttributes _ _ _ _ _ _
  · exact declareAttributes _ _ _ _ _ _
  · exact declareAttributes _ _ _ _ _ _
  · exact declareAttributes _ _ _ _ _ _
  · exact refl survey

/-- A node adds what it declares itself. -/
theorem enter
    (survey : Survey)
    (source : SourceLabel)
    (region : Region)
    (node : SyntaxNode) :
    Adds survey (survey.enter source region node) ((region.bindings node).map Prod.snd)
      (region.frames node) (region.hardScopes node) := by
  cases body : region.bodyOf? node with
  | some inner =>
      obtain ⟨opened, entered⟩ := openDefinition?_of_bodyOf? survey source body
      rw [enter_of_openDefinition? entered]
      exact openDefinition? entered
  | none =>
      have notOpened : survey.openDefinition? source region node = none := by
        rw [← Option.map_eq_none_iff, map_fst_openDefinition?, body]
      have noFrame : region.frames node = [] := by
        simp [Region.frames, body]
      have noHardScope : region.hardScopes node = [] := by
        simp [Region.hardScopes, body]
      rw [noFrame, noHardScope]
      unfold Survey.enter Region.bindings
      rw [notOpened, body]
      split
      case h_1 | h_2 | h_3 | h_4 | h_5 =>
        next isDefinition =>
          rw [isDefinition]
          exact refl survey
      case h_6 | h_7 =>
        next isAssignment =>
          rw [isAssignment]
          dsimp only
          cases node.child? .left with
          | none =>
              exact refl survey
          | some target =>
              rw [Option.toList_some, List.flatMap_singleton]
              dsimp only
              split
              · exact declareTarget survey source region node target
              · next notDeclared =>
                  rw [Region.targetBindings_eq_nil (Bool.eq_false_iff.mpr notDeclared)]
                  exact refl survey
      case h_8 =>
        next isCall =>
          rw [isCall]
          dsimp only
          split
          · exact refl survey
          · split
            · exact declareByCall survey source region node
            · exact refl survey
      case h_9 | h_10 =>
        next isBlock =>
          rw [isBlock]
          exact openBlock survey source region node
      case h_11 =>
        next isVariable =>
          rw [isVariable]
          exact declareBound survey source region node.identifiers node
      case h_12 =>
        next isLoop =>
          rw [isLoop]
          exact declareLoopTargets survey source region node
      case h_13 =>
        split
        case h_9 => exact refl survey
        all_goals contradiction

end Adds

/-- Another visibility for a method changes nothing that does not depend on it. -/
theorem map_setVisibilityOfFirst_of_eq
    {view : Pin → α}
    (blind : ∀ (pin : Pin) (detail : MethodDetail) (visibility : Visibility),
      pin.kind = .method detail →
        view { pin with kind := .method { detail with visibility } } = view pin)
    (visibility : Visibility)
    (isMeant : Pin → Bool)
    (pins : List Pin) :
    (setVisibilityOfFirst visibility isMeant pins).map view = pins.map view := by
  induction pins with
  | nil =>
      rfl
  | cons pin rest inductionHypothesis =>
      unfold setVisibilityOfFirst
      split
      · split
        · next detail isMethod =>
            simp [blind pin detail visibility isMethod]
        · rfl
      · simp [inductionHypothesis]

/-- A frame does not depend on a visibility. -/
theorem filterMap_ofPin?_setVisibilityOfFirst
    (visibility : Visibility)
    (isMeant : Pin → Bool)
    (pins : List Pin) :
    (setVisibilityOfFirst visibility isMeant pins).reverse.filterMap Frame.ofPin? =
      pins.reverse.filterMap Frame.ofPin? := by
  have sameFrames :
      (setVisibilityOfFirst visibility isMeant pins).map Frame.ofPin? =
        pins.map Frame.ofPin? := by
    refine map_setVisibilityOfFirst_of_eq (fun pin detail visibility isMethod => ?_) _ _ _
    simp only [Frame.ofPin?, Outline.isEnclosing, PinOf.innerClosure, isMethod]
    rfl
  have inOrder := congrArg (fun frames => frames.reverse.filterMap id) sameFrames
  simpa [← List.map_reverse, List.filterMap_map] using inOrder

/-- A survey lists the locals that the entered nodes bind. -/
theorem isListed_locals
    (source : SourceLabel) :
    IsListed source (fun survey => survey.locals.reverse.map Binding.ofPin?)
      (fun region node => (region.bindings node).map fun bound => some bound.2) where
  withVisibility _ _ := rfl
  setVisibility _ _ _ _ := rfl
  enter survey region node := by
    rw [(Adds.enter survey source region node).locals, List.map_map]
    rfl

/-- A survey lists the frames of the definitions that it opens. -/
theorem isListed_frames
    (source : SourceLabel) :
    IsListed source (fun survey => survey.pins.reverse.filterMap Frame.ofPin?) Region.frames where
  withVisibility _ _ := rfl
  setVisibility _ _ _ _ := filterMap_ofPin?_setVisibilityOfFirst _ _ _
  enter survey region node := (Adds.enter survey source region node).pins

/-- A survey lists the hard scopes of the definitions that it opens. -/
theorem isListed_hardScopes
    (source : SourceLabel) :
    IsListed source Survey.hardScopes Region.hardScopes where
  withVisibility _ _ := rfl
  setVisibility _ _ _ _ := rfl
  enter survey region node := (Adds.enter survey source region node).hardScopes

end Survey

end TagCheck
