import Mathlib.Data.List.Forall2
import TagCheck.Proofs.Outline.Declarations

namespace TagCheck

/-!
# The steps of a survey

A survey enters one node after the other, and now and then a call gives an earlier method another
visibility.  Which steps these are, and which visibility new methods have when a node is entered,
follows from the tree alone: the visibility changes at keywords that the walk meets, and a definition
or a block restores it.
-/

/-- A step of a survey. -/
inductive Step where
  /-- A node is entered while new methods have a visibility. -/
  | enter (region : Region) (default : Visibility) (node : SyntaxNode)
  /-- A call gives the latest method of a name another visibility. -/
  | setVisibility (region : Region) (visibility : Visibility) (name : String)

namespace SyntaxNode

/-- Arguments of a call stand below it. -/
theorem sizeOf_lt_of_mem_arguments
    {node argument : SyntaxNode}
    (member : argument ∈ node.arguments) :
    sizeOf argument < sizeOf node := by
  obtain ⟨list, found, isStatement⟩ := exists_of_mem_arguments member
  exact (sizeOf_lt_of_mem_children (List.mem_filter.mp isStatement).1).trans
    (sizeOf_lt_of_mem_children (mem_children_of_child? found))

end SyntaxNode

namespace Region

/-- The keywords which the walk over a node meets and which it does not restore. -/
def heard (region : Region) (node : SyntaxNode) : List Visibility :=
  if node.restoresVisibility || (region.argumentVisibility? node).isSome then
    []
  else
    (region.keyword? node).toList ++
      (region.walked node).attach.flatMap fun part => part.1.1.heard part.1.2
termination_by sizeOf node
decreasing_by exact sizeOf_lt_of_mem_walked part.2

theorem heard_eq
    (region : Region)
    (node : SyntaxNode) :
    region.heard node =
      if node.restoresVisibility || (region.argumentVisibility? node).isSome then
        []
      else
        (region.keyword? node).toList ++
          (region.walked node).flatMap fun part => part.1.heard part.2 := by
  rw [heard, List.flatMap_subtype (g := fun part => part.1.heard part.2) (fun _ _ => rfl),
    List.unattach_attach]

/-- The visibility of new methods behind a node. -/
def visibilityBehind (region : Region) (default : Visibility) (node : SyntaxNode) : Visibility :=
  (region.heard node).getLast?.getD default

/-- Nodes are entered one after the other, each with the visibility behind the one before. -/
def threaded (default : Visibility) : List (Region × SyntaxNode) → List Step
  | [] => []
  | (region, node) :: rest =>
      .enter region default node :: threaded (region.visibilityBehind default node) rest

/-- An argument that names a method gives it a visibility; any other is entered with it. -/
def argumentStep (region : Region) (visibility : Visibility) (argument : SyntaxNode) : Step :=
  if argument.isMethodNameLiteral then
    .setVisibility region visibility (symbolName argument.text)
  else
    .enter region visibility argument

/-- The steps that a node brings about by itself once it is entered. -/
def parts (region : Region) (default : Visibility) (node : SyntaxNode) : List Step :=
  match region.argumentVisibility? node with
  | some visibility =>
      node.arguments.map (region.argumentStep visibility)
  | none =>
      threaded (if (region.bodyOf? node).isSome then .publicAccess else default)
        (region.walked node)

theorem mem_threaded
    {default : Visibility}
    {walked : List (Region × SyntaxNode)}
    {step : Step}
    (member : step ∈ threaded default walked) :
    ∃ part ∈ walked, ∃ visibility, step = .enter part.1 visibility part.2 := by
  induction walked generalizing default with
  | nil =>
      cases member
  | cons part rest inductionHypothesis =>
      rcases List.mem_cons.mp member with rfl | inRest
      · exact ⟨part, List.mem_cons_self, default, rfl⟩
      · obtain ⟨other, isPart, same⟩ := inductionHypothesis inRest
        exact ⟨other, List.mem_cons_of_mem _ isPart, same⟩

end Region

namespace Step

/-- The nodes that a step goes into. -/
def nodes : Step → List SyntaxNode
  | .enter _ _ node => [node]
  | .setVisibility .. => []

theorem sizeOf_nodes_lt_of_mem_parts
    {region : Region}
    {default : Visibility}
    {node : SyntaxNode}
    {step : Step}
    (member : step ∈ region.parts default node) :
    sizeOf step.nodes < sizeOf [node] := by
  unfold Region.parts at member
  split at member
  · obtain ⟨argument, isArgument, rfl⟩ := List.mem_map.mp member
    have smaller := SyntaxNode.sizeOf_lt_of_mem_arguments isArgument
    unfold Region.argumentStep
    split
    · simp only [nodes, List.nil.sizeOf_spec, List.cons.sizeOf_spec]
      omega
    · simpa [nodes] using smaller
  · obtain ⟨part, isPart, _, rfl⟩ := Region.mem_threaded member
    simpa [nodes] using Region.sizeOf_lt_of_mem_walked isPart

/-- A step with all steps that it brings about. -/
def expand : Step → List Step
  | .enter region default node =>
      .enter region default node ::
        (region.parts default node).attach.flatMap fun step => step.1.expand
  | .setVisibility region visibility name => [.setVisibility region visibility name]
termination_by step => sizeOf step.nodes
decreasing_by exact sizeOf_nodes_lt_of_mem_parts step.2

end Step

namespace Region

/-- The steps of the walk over a node. -/
def steps (region : Region) (default : Visibility) (node : SyntaxNode) : List Step :=
  (Step.enter region default node).expand

/-- A node is entered before its parts. -/
theorem steps_eq
    (region : Region)
    (default : Visibility)
    (node : SyntaxNode) :
    region.steps default node =
      .enter region default node :: (region.parts default node).flatMap Step.expand := by
  rw [steps, Step.expand, List.flatMap_subtype (g := Step.expand) (fun _ _ => rfl),
    List.unattach_attach]

/-- The steps of the walk over several nodes. -/
def stepsThrough (default : Visibility) (walked : List (Region × SyntaxNode)) : List Step :=
  (threaded default walked).flatMap Step.expand

theorem stepsThrough_cons
    (default : Visibility)
    (part : Region × SyntaxNode)
    (rest : List (Region × SyntaxNode)) :
    stepsThrough default (part :: rest) =
      part.1.steps default part.2 ++
        stepsThrough (part.1.visibilityBehind default part.2) rest :=
  List.flatMap_cons

/-- The visibility behind several nodes. -/
def visibilityThrough (default : Visibility) (walked : List (Region × SyntaxNode)) : Visibility :=
  (walked.flatMap fun part => part.1.heard part.2).getLast?.getD default

theorem visibilityThrough_cons
    (default : Visibility)
    (part : Region × SyntaxNode)
    (rest : List (Region × SyntaxNode)) :
    visibilityThrough default (part :: rest) =
      visibilityThrough (part.1.visibilityBehind default part.2) rest := by
  rw [visibilityThrough, List.flatMap_cons, List.getLast?_append, Option.getD_or]
  rfl

end Region

/-- The steps of the survey of a program. -/
def SyntaxNode.steps (root : SyntaxNode) : List Step :=
  Region.stepsThrough .publicAccess (root.children.map (Region.ofProgram root.span, ·))

/-- A declaration as a survey lists it. -/
structure Entry where
  declaration : Declaration
  /-- The visibility of a method; none for anything else. -/
  visibility? : Option Visibility

namespace Declaration

/-- The visibility of a declaration; `initialize` is always private. -/
def visibility? (declaration : Declaration) (default : Visibility) : Option Visibility :=
  match declaration.kind with
  | .method _ _ isAttribute =>
      some (if !isAttribute && declaration.name = "initialize" then .privateAccess else default)
  | _ => none

/-- A call in a region that names a method means this declaration. -/
def isMeant (declaration : Declaration) (region : Region) (name : String) : Bool :=
  declaration.name = name &&
    declaration.closure.namespacePath = region.closure.namespacePath &&
      match declaration.kind with
      | .method scope _ _ => scope = region.definitionScope
      | _ => false

end Declaration

namespace Entry

/-- What a pin lists. -/
def ofPin (pin : Pin) : Entry :=
  ⟨.ofPin pin, pin.method?.map (·.visibility)⟩

@[simp] theorem declaration_ofPin
    (pin : Pin) :
    (ofPin pin).declaration = .ofPin pin :=
  rfl

/-- What a survey lists when something is declared. -/
def declare (default : Visibility) (declaration : Declaration) : Entry :=
  ⟨declaration, declaration.visibility? default⟩

/-- Another visibility for a method that a call means. -/
def setVisibility? (region : Region) (visibility : Visibility) (name : String) (entry : Entry) :
    Option Entry :=
  if entry.declaration.isMeant region name then
    some { entry with visibility? := some visibility }
  else
    none

theorem ofPin_eq_declare
    {pin : Pin}
    {default : Visibility}
    (hasDefault : pin.HasDefault default) :
    ofPin pin = declare default (.ofPin pin) := by
  unfold ofPin declare Declaration.visibility? Declaration.ofPin PinOf.method?
  cases kind : pin.kind with
  | method detail =>
      simp only [DeclaredKind.ofKind, Option.map_some, hasDefault detail kind]
  | _ =>
      rfl

end Entry

namespace Step

/-- What a step declares itself. -/
def declarations : Step → List Declaration
  | .enter region _ node => region.declarations node
  | .setVisibility .. => []

/-- What a survey lists after a step. -/
def take (entries : List Entry) : Step → List Entry
  | .enter region default node =>
      entries ++ (region.declarations node).map (Entry.declare default)
  | .setVisibility region visibility name =>
      (entries.reverse.replaceF (Entry.setVisibility? region visibility name)).reverse

/-- A step gives a method of this name in this namespace another visibility. -/
def isMeant (declaration : Declaration) : Step → Bool
  | .enter .. => false
  | .setVisibility region _ name => declaration.isMeant region name

/-- What steps make of an entry that they find. -/
structure Leave (steps : List Step) (before after : Entry) : Prop where
  declaration : after.declaration = before.declaration
  visibility? : (∀ step ∈ steps, step.isMeant before.declaration = false) →
    after.visibility? = before.visibility?

namespace Leave

theorem refl
    (steps : List Step)
    (entry : Entry) :
    Leave steps entry entry :=
  ⟨rfl, fun _ => rfl⟩

theorem cons
    {step : Step}
    {rest : List Step}
    {before middle after : Entry}
    (first : Leave [step] before middle)
    (second : Leave rest middle after) :
    Leave (step :: rest) before after where
  declaration := second.declaration.trans first.declaration
  visibility? notMeant := by
    obtain ⟨notFirst, notRest⟩ := List.forall_mem_cons.mp notMeant
    rw [second.visibility? (first.declaration ▸ notRest),
      first.visibility? (List.forall_mem_singleton.mpr notFirst)]

end Leave

/-- Replacing one item leaves the others where they are. -/
theorem exists_getElem?_replaceF
    (replace? : α → Option α)
    {items : List α}
    {place : Nat}
    {item : α}
    (found : items[place]? = some item) :
    ∃ other, (items.replaceF replace?)[place]? = some other ∧
      (other = item ∨ replace? item = some other) := by
  induction items generalizing place with
  | nil =>
      cases found
  | cons first rest inductionHypothesis =>
      rw [List.replaceF_cons]
      cases replaced : replace? first with
      | none =>
          cases place with
          | zero =>
              exact ⟨first, rfl, Or.inl (Option.some.inj found)⟩
          | succ place =>
              exact inductionHypothesis found
      | some other =>
          cases place with
          | zero =>
              cases Option.some.inj found
              exact ⟨other, rfl, Or.inr replaced⟩
          | succ place =>
              exact ⟨item, found, Or.inl rfl⟩

/-- Replacing an item by a like one changes no view that is alike. -/
theorem map_replaceF
    {replace? : α → Option α}
    {view : α → β}
    (alike : ∀ item other, replace? item = some other → view other = view item)
    (items : List α) :
    (items.replaceF replace?).map view = items.map view := by
  induction items with
  | nil =>
      rfl
  | cons item rest inductionHypothesis =>
      rw [List.replaceF_cons]
      cases replaced : replace? item with
      | none =>
          rw [List.map_cons, inductionHypothesis, List.map_cons]
      | some other =>
          rw [List.map_cons, alike item other replaced, List.map_cons]

/-- A step leaves an entry where it is, and changes at most its visibility. -/
theorem exists_getElem?_take
    (step : Step)
    {entries : List Entry}
    {place : Nat}
    {entry : Entry}
    (found : entries[place]? = some entry) :
    ∃ after, (take entries step)[place]? = some after ∧ Leave [step] entry after := by
  have inside : place < entries.length := (List.getElem?_eq_some_iff.mp found).1
  cases step with
  | enter region default node =>
      exact ⟨entry, by rw [take, List.getElem?_append_left inside, found], .refl _ entry⟩
  | setVisibility region visibility name =>
      rw [← List.reverse_reverse entries, List.getElem?_reverse (by simpa using inside)] at found
      obtain ⟨after, foundAfter, same | replaced⟩ :=
        exists_getElem?_replaceF (Entry.setVisibility? region visibility name) found
      all_goals
        refine ⟨after, ?_, ?_⟩
        · rw [take, List.getElem?_reverse (by simpa using inside), List.length_replaceF, foundAfter]
      · rw [same]
        exact .refl _ entry
      · unfold Entry.setVisibility? at replaced
        split at replaced
        · next meant =>
            cases Option.some.inj replaced
            refine ⟨rfl, fun notMeant => ?_⟩
            have isMeant := notMeant _ List.mem_cons_self
            rw [Step.isMeant, meant] at isMeant
            cases isMeant
        · cases replaced

/-- Steps leave an entry where it is, and change at most its visibility. -/
theorem exists_getElem?_foldl_take
    (steps : List Step)
    {entries : List Entry}
    {place : Nat}
    {entry : Entry}
    (found : entries[place]? = some entry) :
    ∃ after, (steps.foldl take entries)[place]? = some after ∧ Leave steps entry after := by
  induction steps generalizing entries entry with
  | nil =>
      exact ⟨entry, found, .refl _ entry⟩
  | cons step rest inductionHypothesis =>
      obtain ⟨middle, foundMiddle, first⟩ := exists_getElem?_take step found
      obtain ⟨after, foundAfter, second⟩ := inductionHypothesis foundMiddle
      exact ⟨after, foundAfter, first.cons second⟩

/-- Steps list what they declare. -/
theorem map_declaration_foldl_take
    (steps : List Step)
    (entries : List Entry) :
    (steps.foldl take entries).map Entry.declaration =
      entries.map Entry.declaration ++ steps.flatMap declarations := by
  induction steps generalizing entries with
  | nil =>
      exact (List.append_nil _).symm
  | cons step rest inductionHypothesis =>
      rw [List.foldl_cons, inductionHypothesis, List.flatMap_cons, ← List.append_assoc]
      congr 1
      cases step with
      | enter region default node =>
          rw [take, List.map_append, List.map_map]
          exact congrArg _ (List.map_id _)
      | setVisibility region visibility name =>
          rw [take, List.map_reverse, map_replaceF, ← List.map_reverse, List.reverse_reverse]
          · exact (List.append_nil _).symm
          · intro entry other replaced
            unfold Entry.setVisibility? at replaced
            split at replaced
            · cases Option.some.inj replaced
              rfl
            · cases replaced

end Step

namespace Survey

/-- What a survey lists. -/
def entries (survey : Survey) : List Entry :=
  survey.pins.reverse.map Entry.ofPin

theorem entries_enter
    (survey : Survey)
    (source : SourceLabel)
    (region : Region)
    (node : SyntaxNode) :
    (survey.enter source region node).entries =
      Step.take survey.entries (.enter region survey.visibility node) := by
  obtain ⟨pins, grown, declared, visible⟩ := Declares.enter survey source region node
  rw [entries, grown, List.reverse_append, List.reverse_reverse, List.map_append, Step.take,
    ← declared, List.map_map]
  exact congrArg _ (List.map_congr_left fun pin member => Entry.ofPin_eq_declare (visible pin member))

/-- A declaration that a call means is a method's. -/
theorem exists_method_of_isMeant
    {pin : Pin}
    {region : Region}
    {name : String}
    (meant : (Declaration.ofPin pin).isMeant region name = true) :
    ∃ detail, pin.kind = .method detail := by
  unfold Declaration.isMeant Declaration.ofPin at meant
  cases kind : pin.kind with
  | method detail =>
      exact ⟨detail, rfl⟩
  | _ =>
      simp [kind, DeclaredKind.ofKind] at meant

theorem map_ofPin_setVisibilityOfFirst_eq
    {region : Region}
    {visibility : Visibility}
    {name : String}
    {isMeant : Pin → Bool}
    (sameMeant : ∀ pin, isMeant pin = (Declaration.ofPin pin).isMeant region name)
    (pins : List Pin) :
    (setVisibilityOfFirst visibility isMeant pins).map Entry.ofPin =
      (pins.map Entry.ofPin).replaceF (Entry.setVisibility? region visibility name) := by
  induction pins with
  | nil =>
      rfl
  | cons pin rest inductionHypothesis =>
      rw [setVisibilityOfFirst, sameMeant, List.map_cons, List.replaceF_cons, Entry.setVisibility?,
        Entry.declaration_ofPin]
      by_cases meant : (Declaration.ofPin pin).isMeant region name
      · obtain ⟨detail, isMethod⟩ := exists_method_of_isMeant meant
        rw [if_pos meant, if_pos meant, isMethod]
        simp only [List.map_cons, Entry.ofPin, Declaration.ofPin, PinOf.method?, isMethod]
        rfl
      · rw [if_neg meant, if_neg meant, List.map_cons, inductionHypothesis]

/-- A call that names a method gives another visibility to the entry of that method. -/
theorem entries_setVisibility
    (survey : Survey)
    (region : Region)
    (visibility : Visibility)
    (name : String) :
    (survey.setVisibility region visibility name).entries =
      Step.take survey.entries (.setVisibility region visibility name) := by
  rw [entries, Step.take, entries, List.map_reverse, List.map_reverse, List.reverse_reverse,
    setVisibility, map_ofPin_setVisibilityOfFirst_eq]
  intro pin
  unfold Declaration.isMeant Declaration.ofPin PinOf.method?
  cases pin.kind <;> rfl

/-- Inside a definition new methods are public. -/
theorem visibility_openDefinition?
    {survey opened : Survey}
    {source : SourceLabel}
    {region inner : Region}
    {node : SyntaxNode}
    (entered : survey.openDefinition? source region node = some (inner, opened)) :
    opened.visibility = .publicAccess := by
  have ofNamespace (entered : survey.openNamespace? source region node = some (inner, opened)) :
      opened.visibility = .publicAccess := by
    obtain ⟨_, -, same⟩ := Option.bind_eq_some_iff.mp entered
    cases same
    rfl
  have ofMethod {scope : Scope}
      (entered : survey.openMethod? source region node scope = some (inner, opened)) :
      opened.visibility = .publicAccess := by
    obtain ⟨_, -, same⟩ := Option.bind_eq_some_iff.mp entered
    cases same
    rfl
  unfold openDefinition? at entered
  split at entered
  · exact ofNamespace entered
  · exact ofNamespace entered
  · unfold openSingletonClass? at entered
    split at entered
    · split at entered
      · cases entered
        rfl
      · cases entered
    · cases entered
  · exact ofMethod entered
  · split at entered
    · split at entered
      · exact ofMethod entered
      · cases entered
    · cases entered
  · cases entered

/-- What is done for several items keeps the visibility if it does so for each. -/
theorem visibility_foldl
    {act : Survey → α → Survey}
    (keeps : ∀ survey item, (act survey item).visibility = survey.visibility)
    (survey : Survey)
    (items : List α) :
    (items.foldl act survey).visibility = survey.visibility :=
  List.foldlRecOn (motive := fun after : Survey => after.visibility = survey.visibility) items act
    rfl fun after same item _ => (keeps after item).trans same

theorem visibility_declareTarget
    (survey : Survey)
    (source : SourceLabel)
    (region : Region)
    (node target : SyntaxNode) :
    (survey.declareTarget source region node target).visibility = survey.visibility := by
  unfold declareTarget
  dsimp only
  split
  case h_2 => exact visibility_foldl (by intros; rfl) _ _
  all_goals rfl

theorem visibility_declareByCall
    (survey : Survey)
    (source : SourceLabel)
    (region : Region)
    (node : SyntaxNode) :
    (survey.declareByCall source region node).visibility = survey.visibility := by
  have ofAttributes (call : String) :
      (survey.declareAttributes source region call node.arguments node.comments).visibility =
        survey.visibility := by
    refine visibility_foldl (fun survey argument => ?_) _ _
    dsimp only
    split
    · rfl
    · split <;> split <;> rfl
  unfold declareByCall
  split
  case h_8 => rfl
  case h_1 | h_2 | h_3 => exact visibility_foldl (by intros; rfl) _ _
  all_goals exact ofAttributes _

/-- Entering a node changes the visibility of new methods only at a definition. -/
theorem visibility_enter
    (survey : Survey)
    (source : SourceLabel)
    (region : Region)
    (node : SyntaxNode) :
    (survey.enter source region node).visibility =
      if (region.bodyOf? node).isSome then .publicAccess else survey.visibility := by
  cases body : region.bodyOf? node with
  | some inner =>
      obtain ⟨opened, entered⟩ := openDefinition?_of_bodyOf? survey source body
      rw [enter_of_openDefinition? entered]
      exact visibility_openDefinition? entered
  | none =>
      have notOpened : survey.openDefinition? source region node = none := by
        rw [← Option.map_eq_none_iff, map_fst_openDefinition?, body]
      unfold enter
      rw [notOpened]
      split
      case h_6 | h_7 =>
        split
        · split
          · exact visibility_declareTarget survey source region node _
          · rfl
        · rfl
      case h_8 =>
        split
        · rfl
        · split
          · exact visibility_declareByCall survey source region node
          · rfl
      case h_9 | h_10 =>
        unfold openBlock
        dsimp only
        split <;> rfl
      case h_11 =>
        exact visibility_foldl (by intros; rfl) _ _
      case h_12 =>
        unfold declareLoopTargets
        split
        · exact visibility_foldl (by intros; rfl) _ _
        · rfl
      all_goals rfl

end Survey

end TagCheck
