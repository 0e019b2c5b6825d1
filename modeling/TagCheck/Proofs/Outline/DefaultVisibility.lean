import Mathlib.Data.List.DropRight
import TagCheck.CoreLibrary.Stub
import TagCheck.Proofs.Outline.SurveySteps

namespace TagCheck

/-!
# The visibility that a body gives to its methods

A keyword statement of a body, `private` say, asks for a visibility of the methods behind it.  But the
walk also hears keywords in other places, in `x.private` for one, and a method of the class itself
gets the visibility too.  A method has the visibility that was heard last.
-/

namespace SyntaxNode

/-- The visibility that the last keyword statement asks for; public if there is none. -/
def keywordVisibility (before : List SyntaxNode) : Visibility :=
  (before.filterMap keyword?).getLast?.getD .publicAccess

theorem keywordVisibility_concat
    (before : List SyntaxNode)
    (node : SyntaxNode) :
    keywordVisibility (before ++ [node]) = node.keyword?.getD (keywordVisibility before) := by
  unfold keywordVisibility
  rw [List.filterMap_append]
  cases asks : node.keyword? with
  | some visibility =>
      rw [List.filterMap_cons_some asks]
      simp
  | none =>
      rw [List.filterMap_cons_none asks, List.filterMap_nil, List.append_nil]
      rfl

/-- The statements behind the last keyword statement. -/
def sinceKeyword (before : List SyntaxNode) : List SyntaxNode :=
  before.rtakeWhile (·.keyword?.isNone)

end SyntaxNode

namespace Region

variable {region : Region}

/-- The walk hears the keyword that a statement is. -/
theorem heard_of_keyword?
    {node : SyntaxNode}
    {visibility : Visibility}
    (asks : region.keyword? node = some visibility) :
    region.heard node = [visibility] := by
  have notRestored : node.restoresVisibility = false ∧ region.argumentVisibility? node = none := by
    by_cases isCall : node.kind = .call
    · rw [keyword?_of_call isCall] at asks
      split at asks
      · next noArguments =>
          simp [SyntaxNode.restoresVisibility, argumentVisibility?, isCall, noArguments]
      · cases asks
    · unfold keyword? SyntaxNode.keyword? at asks
      split at asks
      · split at asks
        · next isWord =>
            simp [SyntaxNode.restoresVisibility, argumentVisibility?, isWord]
        · next isCall' => exact absurd isCall' isCall
        · cases asks
      · cases asks
  rw [heard_eq, notRestored.1, notRestored.2, asks, walked_of_keyword? asks]
  rfl

/-- Inside a definition its statements are walked. -/
theorem walked_of_bodyOf?
    {inner : Region}
    {node : SyntaxNode}
    (opens : region.bodyOf? node = some inner) :
    region.walked node = node.statements.map (inner, ·) := by
  rw [walked_of_isDefinition (kind_of_bodyOf? opens), opens, Option.toList_some,
    List.flatMap_singleton]

/-- A definition is no call. -/
theorem argumentVisibility?_of_bodyOf?
    {inner : Region}
    {node : SyntaxNode}
    (opens : region.bodyOf? node = some inner) :
    region.argumentVisibility? node = none := by
  by_contra asked
  obtain ⟨visibility, asked⟩ := Option.ne_none_iff_exists'.mp asked
  rw [bodyOf?, (visibilityCall?_of_argumentVisibility? asked).1] at opens
  cases opens

theorem stepsThrough_append
    (default : Visibility)
    (walked others : List (Region × SyntaxNode)) :
    stepsThrough default (walked ++ others) =
      stepsThrough default walked ++ stepsThrough (visibilityThrough default walked) others := by
  induction walked generalizing default with
  | nil =>
      rfl
  | cons part rest inductionHypothesis =>
      rw [List.cons_append, stepsThrough_cons, inductionHypothesis, stepsThrough_cons,
        visibilityThrough_cons, List.append_assoc]

theorem visibilityThrough_append
    (default : Visibility)
    (walked : List (Region × SyntaxNode))
    (part : Region × SyntaxNode) :
    visibilityThrough default (walked ++ [part]) =
      part.1.visibilityBehind (visibilityThrough default walked) part.2 := by
  rw [visibilityThrough, List.flatMap_append, List.flatMap_singleton, List.getLast?_append,
    Option.getD_or]
  rfl

/-- Behind several statements of a body the visibility is in force that was heard last. -/
theorem visibilityThrough_statements
    (inBody : region.inNamespaceBody = true)
    (before : List SyntaxNode) :
    visibilityThrough .publicAccess (before.map (region, ·)) =
      ((SyntaxNode.sinceKeyword before).flatMap region.heard).getLast?.getD
        (SyntaxNode.keywordVisibility before) := by
  induction before using List.reverseRecOn with
  | nil =>
      rfl
  | append_singleton before node inductionHypothesis =>
      rw [List.map_append, List.map_singleton, visibilityThrough_append, inductionHypothesis,
        visibilityBehind, SyntaxNode.keywordVisibility_concat]
      cases asks : node.keyword? with
      | some visibility =>
          have asksHere : region.keyword? node = some visibility := by
            rw [keyword?, if_pos inBody, asks]
          have noneSince : SyntaxNode.sinceKeyword (before ++ [node]) = [] :=
            List.rtakeWhile_concat_neg _ _ _ (by rw [asks]; exact Bool.false_ne_true)
          rw [heard_of_keyword? asksHere, noneSince]
          rfl
      | none =>
          have since : SyntaxNode.sinceKeyword (before ++ [node]) =
              SyntaxNode.sinceKeyword before ++ [node] :=
            List.rtakeWhile_concat_pos _ _ _ (by rw [asks]; rfl)
          rw [since, List.flatMap_append, List.flatMap_singleton, List.getLast?_append,
            Option.getD_or]
          rfl

theorem exists_mem_threaded
    (default : Visibility)
    {walked : List (Region × SyntaxNode)}
    {part : Region × SyntaxNode}
    (member : part ∈ walked) :
    ∃ visibility, .enter part.1 visibility part.2 ∈ threaded default walked := by
  induction walked generalizing default with
  | nil =>
      cases member
  | cons first rest inductionHypothesis =>
      rcases List.mem_cons.mp member with rfl | inRest
      · exact ⟨default, List.mem_cons_self⟩
      · obtain ⟨visibility, isStep⟩ := inductionHypothesis _ inRest
        exact ⟨visibility, List.mem_cons_of_mem _ isStep⟩

/-- The walked parts of a node are entered by its steps. -/
theorem exists_mem_parts
    (default : Visibility)
    {inner : Region}
    {node child : SyntaxNode}
    (member : (inner, child) ∈ region.walked node) :
    ∃ visibility, .enter inner visibility child ∈ region.parts default node := by
  unfold parts
  split
  · next visibility asked =>
      obtain ⟨isCall, asks⟩ := visibilityCall?_of_argumentVisibility? asked
      rw [walked, isCall, asks] at member
      obtain ⟨argument, isWalked, same⟩ := List.mem_map.mp member
      cases same
      obtain ⟨isArgument, notLiteral⟩ := List.mem_filter.mp isWalked
      refine ⟨visibility, List.mem_map.mpr ⟨child, isArgument, ?_⟩⟩
      rw [argumentStep, if_neg (by simpa using notLiteral)]
  · exact exists_mem_threaded _ member

end Region

/-- Among several steps each is taken with all steps that it brings about. -/
theorem Step.exists_flatMap_expand
    {step : Step}
    {steps : List Step}
    (member : step ∈ steps) :
    ∃ front back, steps.flatMap expand = front ++ step.expand ++ back := by
  obtain ⟨before, behind, rfl⟩ := List.append_of_mem member
  exact ⟨before.flatMap expand, behind.flatMap expand, by
    rw [List.flatMap_append, List.flatMap_cons, List.append_assoc]⟩

/-- A statement in the body of a class, a module or a singleton class. -/
structure SyntaxNode.BodyStatement (root : SyntaxNode) where
  /-- What is around the definition. -/
  outer : Region
  inner : Region
  /-- The visibility of new methods in front of the definition. -/
  default : Visibility
  definition : SyntaxNode
  before : List SyntaxNode
  node : SyntaxNode
  behind : List SyntaxNode
  /-- The steps in front of the definition. -/
  front : List Step
  /-- The steps behind the definition. -/
  back : List Step
  opens : outer.bodyOf? definition = some inner
  inBody : inner.inNamespaceBody = true
  statements_eq : definition.statements = before ++ node :: behind
  steps_eq : root.steps = front ++ outer.steps default definition ++ back

namespace SyntaxNode

/-- Whatever is walked is gone through by the steps of a program, one after the other. -/
theorem exists_steps_of_walks
    {root node : SyntaxNode}
    {region : Region}
    (walks : root.Walks region node) :
    ∃ default front back, root.steps = front ++ region.steps default node ++ back := by
  induction walks with
  | statement member =>
      obtain ⟨default, isStep⟩ := Region.exists_mem_threaded .publicAccess
        (List.mem_map_of_mem (f := (Region.ofProgram root.span, ·)) member)
      obtain ⟨front, back, parts⟩ := Step.exists_flatMap_expand isStep
      exact ⟨default, front, back, parts⟩
  | @part outer inner node child _ member inductionHypothesis =>
      obtain ⟨outerDefault, outerFront, outerBack, outerParts⟩ := inductionHypothesis
      obtain ⟨default, isStep⟩ := Region.exists_mem_parts outerDefault member
      obtain ⟨front, back, parts⟩ := Step.exists_flatMap_expand isStep
      refine ⟨default, outerFront ++ .enter outer outerDefault node :: front, back ++ outerBack, ?_⟩
      rw [outerParts, Region.steps_eq, parts]
      simp only [List.append_assoc, List.cons_append]
      rfl

namespace BodyStatement

variable {root : SyntaxNode} (statement : root.BodyStatement)

/-- The keyword that the walk heard last since the last keyword statement. -/
def heard? : Option Visibility :=
  ((sinceKeyword statement.before).flatMap statement.inner.heard).getLast?

/-- The visibility of new methods at the statement. -/
def visibility : Visibility :=
  statement.heard?.getD (keywordVisibility statement.before)

/-- The steps in front of the statement. -/
def earlier : List Step :=
  statement.front ++
    .enter statement.outer statement.default statement.definition ::
      Region.stepsThrough .publicAccess (statement.before.map (statement.inner, ·))

/-- The steps inside the statement and behind it. -/
def later : List Step :=
  (statement.inner.parts statement.visibility statement.node).flatMap Step.expand ++
    Region.stepsThrough
      (statement.inner.visibilityBehind statement.visibility statement.node)
      (statement.behind.map (statement.inner, ·)) ++
    statement.back

/-- The statement is entered while its visibility is in force. -/
theorem steps_eq_append :
    root.steps =
      statement.earlier ++
        .enter statement.inner statement.visibility statement.node :: statement.later := by
  have ofBody : statement.outer.steps statement.default statement.definition =
      .enter statement.outer statement.default statement.definition ::
        Region.stepsThrough .publicAccess (statement.definition.statements.map
          (statement.inner, ·)) := by
    rw [Region.steps_eq, Region.parts, Region.argumentVisibility?_of_bodyOf? statement.opens,
      statement.opens, Region.walked_of_bodyOf? statement.opens]
    rfl
  rw [statement.steps_eq, ofBody, statement.statements_eq, List.map_append, List.map_cons,
    Region.stepsThrough_append, Region.visibilityThrough_statements statement.inBody,
    Region.stepsThrough_cons, Region.steps_eq]
  simp only [earlier, later, List.append_assoc, List.cons_append]
  rfl

/-- The pins of what the statement itself declares. -/
def pins (source : SourceLabel) : List Pin :=
  ((Survey.ofProgram source root).pins.reverse.drop
    (statement.earlier.flatMap Step.declarations).length).take
      (statement.inner.declarations statement.node).length

/-- The pins of a statement are what the statement declares. -/
theorem map_ofPin_pins
    (source : SourceLabel) :
    (statement.pins source).map Declaration.ofPin =
      statement.inner.declarations statement.node := by
  rw [pins, List.map_take, List.map_drop, Survey.map_ofPin_ofProgram, statement.steps_eq_append,
    List.flatMap_append, List.drop_left, List.flatMap_cons]
  exact List.take_left

/-- A method of a statement that no later call names has the visibility at the statement. -/
theorem visibility_of_mem_pins
    {source : SourceLabel}
    {pin : Pin}
    {detail : MethodDetail}
    (member : pin ∈ statement.pins source)
    (isMethod : pin.kind = .method detail)
    (notNamed : ∀ step ∈ statement.later, step.isMeant (.ofPin pin) = false) :
    detail.visibility =
      if !detail.isAttribute && pin.name = "initialize" then .privateAccess
      else statement.visibility := by
  obtain ⟨place, found⟩ := List.mem_iff_getElem?.mp member
  rw [pins, List.getElem?_take] at found
  split at found
  case isFalse => cases found
  rw [List.getElem?_drop] at found
  have inside : place < (statement.inner.declarations statement.node).length := by assumption
  let entered := (statement.inner.declarations statement.node)[place]
  -- What the survey lists there behind the statement is the entry that the statement makes.
  have foundEntered :
      (Step.take (statement.earlier.foldl Step.take [])
        (.enter statement.inner statement.visibility statement.node))[
          (statement.earlier.flatMap Step.declarations).length + place]? =
        some (.declare statement.visibility entered) := by
    have sameLength : (statement.earlier.foldl Step.take []).length =
        (statement.earlier.flatMap Step.declarations).length := by
      simpa using congrArg List.length (Step.map_declaration_foldl_take statement.earlier [])
    rw [Step.take, List.getElem?_append_right (by omega), sameLength, Nat.add_sub_cancel_left,
      List.getElem?_map, List.getElem?_eq_getElem inside]
    rfl
  obtain ⟨after, foundAfter, leaves⟩ :=
    Step.exists_getElem?_foldl_take statement.later foundEntered
  rw [← List.foldl_cons, ← List.foldl_append, ← statement.steps_eq_append,
    ← Survey.entries_ofProgram source, Survey.entries, List.getElem?_map, found,
    Option.map_some, Option.some.injEq] at foundAfter
  subst foundAfter
  have sameDeclaration : Declaration.ofPin pin = entered := leaves.declaration
  have sameVisibility := leaves.visibility? (sameDeclaration ▸ notNamed)
  rw [Entry.declare, ← sameDeclaration] at sameVisibility
  simpa only [Entry.ofPin, PinOf.method?, isMethod, Option.map_some, Declaration.visibility?,
    Declaration.ofPin, DeclaredKind.ofKind, Option.some.injEq] using sameVisibility

end BodyStatement

/-- Every statement of a walked body is a statement with its place among the steps. -/
theorem exists_bodyStatement
    {root definition node : SyntaxNode}
    {outer inner : Region}
    {before behind : List SyntaxNode}
    (walks : root.Walks outer definition)
    (opens : outer.bodyOf? definition = some inner)
    (inBody : inner.inNamespaceBody = true)
    (statements_eq : definition.statements = before ++ node :: behind) :
    ∃ statement : root.BodyStatement, statement.outer = outer ∧ statement.inner = inner ∧
      statement.definition = definition ∧ statement.before = before ∧ statement.node = node ∧
      statement.behind = behind := by
  obtain ⟨default, front, back, steps_eq⟩ := exists_steps_of_walks walks
  exact ⟨⟨outer, inner, default, definition, before, node, behind, front, back, opens, inBody,
    statements_eq, steps_eq⟩, rfl, rfl, rfl, rfl, rfl, rfl⟩

/--
Methods have the visibility that the last keyword statement in front of them asks for, and methods of
the class itself are public, exactly if the walk heard no other keyword last since that statement.
-/
theorem visibility_of_bodyStatement
    {root : SyntaxNode}
    (statement : root.BodyStatement)
    (source : SourceLabel) :
    (statement.pins source).map Declaration.ofPin =
        statement.inner.declarations statement.node ∧
      ∀ pin ∈ statement.pins source, ∀ detail, pin.kind = .method detail →
        (∀ step ∈ statement.later, step.isMeant (.ofPin pin) = false) →
          if !detail.isAttribute && pin.name = "initialize" then
            detail.visibility = .privateAccess
          else if statement.node.kind = .singletonMethod then
            detail.visibility = .publicAccess ↔
              statement.heard?.getD (keywordVisibility statement.before) = .publicAccess
          else
            detail.visibility = keywordVisibility statement.before ↔
              ∀ heard ∈ statement.heard?, heard = keywordVisibility statement.before := by
  refine ⟨statement.map_ofPin_pins source, fun pin member detail isMethod notNamed => ?_⟩
  have same := statement.visibility_of_mem_pins member isMethod notNamed
  split
  · next isInitialize =>
      rw [same, if_pos isInitialize]
  · next notInitialize =>
      rw [same, if_neg notInitialize, BodyStatement.visibility]
      split
      · rfl
      · cases statement.heard? <;> simp

end SyntaxNode

namespace HeardKeyword

open Stub.Layout SyntaxNode

/-- The statement `private`. -/
def keyword : SyntaxNode :=
  leaf .identifier none ⟨1, 2⟩ "private"

/-- The statement `x.private`. -/
def call : SyntaxNode :=
  branch .call none ⟨1, 2⟩ ⟨1, 11⟩
    [leaf .identifier (some .receiver) ⟨1, 2⟩ "x", leaf .operator (some .operator) ⟨1, 3⟩ ".",
      leaf .identifier (some .method) ⟨1, 4⟩ "private"]

/-- The statement `def bar; end`. -/
def method : SyntaxNode :=
  branch .method none ⟨2, 2⟩ ⟨2, 14⟩ [leaf .identifier (some .name) ⟨2, 6⟩ "bar"]

/-- The class `Foo` with a statement in front of the method. -/
def definition (before : SyntaxNode) : SyntaxNode :=
  branch .classDefinition none ⟨0, 0⟩ ⟨3, 3⟩
    [leaf .constant (some .name) ⟨0, 6⟩ "Foo", { before with field := none }, method]

def root (before : SyntaxNode) : SyntaxNode :=
  branch .program none ⟨0, 0⟩ ⟨4, 0⟩ [definition before]

/-- The body of the class. -/
def body : Region :=
  (Region.ofProgram ⟨⟨0, 0⟩, ⟨4, 0⟩⟩).ofNamespace "Foo" ⟨⟨0, 0⟩, ⟨3, 3⟩⟩

/-- The method as a statement of the class. -/
def statement (before : SyntaxNode) : (root before).BodyStatement where
  outer := .ofProgram ⟨⟨0, 0⟩, ⟨4, 0⟩⟩
  inner := body
  default := .publicAccess
  definition := definition before
  before := [{ before with field := none }]
  node := method
  behind := []
  front := []
  back := []
  opens := rfl
  inBody := rfl
  statements_eq := rfl
  steps_eq := by
    rw [List.append_nil]
    exact List.flatMap_singleton ..

/-- The pin of the method. -/
def pin (visibility : Visibility) : Pin :=
  .declare ⟨1, 2⟩ "bar" "Foo#bar" ⟨"Foo", "Foo", .classLevel⟩ ⟨"foo.rb", method.span⟩ none
    (.method ⟨.instanceLevel, visibility, [], false, some method⟩)

/-- If the class and the method are found, then the pin of the statement is that of the method. -/
theorem pins_statement
    {before : SyntaxNode}
    {classPin methodPin : Pin}
    (found : (Survey.ofProgram ⟨"foo.rb", 1⟩ (root before)).pins = [methodPin, classPin]) :
    (statement before).pins ⟨"foo.rb", 1⟩ = [methodPin] := by
  have declared := Survey.map_ofPin_ofProgram ⟨"foo.rb", 1⟩ (root before)
  rw [found, (statement before).steps_eq_append, List.flatMap_append, List.flatMap_cons] at declared
  have lengths := congrArg List.length declared
  rw [List.length_append] at lengths
  change 2 = _ + 1 at lengths
  rw [SyntaxNode.BodyStatement.pins, found, ← Nat.succ.inj lengths]
  rfl

/-- Behind the statement `private` the method is private, which is what the statement asks for. -/
theorem visibility_behind_keyword :
    pin .privateAccess ∈ (statement keyword).pins ⟨"foo.rb", 1⟩ ∧
      Visibility.privateAccess = keywordVisibility (statement keyword).before := by
  have pins : (statement keyword).pins ⟨"foo.rb", 1⟩ = [pin .privateAccess] := pins_statement rfl
  have member := pins ▸ List.mem_singleton_self (pin .privateAccess)
  have follows : Visibility.privateAccess = keywordVisibility (statement keyword).before ↔
      ∀ heard ∈ (statement keyword).heard?,
        heard = keywordVisibility (statement keyword).before :=
    (visibility_of_bodyStatement (statement keyword) ⟨"foo.rb", 1⟩).2 _ member
      ⟨.instanceLevel, .privateAccess, [], false, some method⟩ rfl nofun
  exact ⟨member, follows.mpr nofun⟩

/-- Behind `x.private` the method is private as well, though no statement asks for it. -/
theorem visibility_behind_call :
    ¬∀ (root : SyntaxNode) (statement : root.BodyStatement) (source : SourceLabel),
      ∀ pin ∈ statement.pins source, ∀ detail, pin.kind = .method detail →
        statement.node.kind = .method → pin.name ≠ "initialize" →
          (∀ step ∈ statement.later, step.isMeant (.ofPin pin) = false) →
            detail.visibility = keywordVisibility statement.before := by
  intro follows
  have pins : (statement call).pins ⟨"foo.rb", 1⟩ = [pin .privateAccess] := pins_statement rfl
  have asked := follows _ (statement call) ⟨"foo.rb", 1⟩ _ (pins ▸ List.mem_singleton_self _) _ rfl
    rfl (by decide) nofun
  exact absurd asked (by decide)

end HeardKeyword

end TagCheck
