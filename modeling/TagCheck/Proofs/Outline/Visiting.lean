import TagCheck.Outline.Survey
import TagCheck.Proofs.Tree.Nesting

namespace TagCheck

/-!
# The way of a survey

Which parts of a node are walked, and in which regions, does not depend on what was declared before.
The walk over a node declares what the node declares itself and walks its parts one after the other,
but for a call that gives its visibility to its arguments.
-/

namespace SyntaxNode

/-- Arguments are statements of the first argument list. -/
theorem exists_of_mem_arguments
    {node argument : SyntaxNode}
    (member : argument ∈ node.arguments) :
    ∃ list, node.child? .arguments = some list ∧ argument ∈ list.statements := by
  unfold arguments at member
  split at member
  · next list found =>
      exact ⟨list, found, member⟩
  · cases member

/-- The arguments of a call are the statements of its argument list. -/
theorem arguments_eq
    (node : SyntaxNode) :
    node.arguments = (node.child? .arguments).toList.flatMap statements := by
  unfold arguments
  cases node.child? .arguments with
  | none =>
      rfl
  | some list =>
      simp

/-- The visibility that a keyword without receiver and arguments asks for. -/
def keyword? (node : SyntaxNode) : Option Visibility :=
  match node.kind with
  | .identifier => Visibility.ofKeyword? node.text
  | .call =>
      if (node.child? .receiver).isNone && node.arguments.isEmpty then
        Visibility.ofKeyword? (node.name?.getD "")
      else
        none
  | _ => none

/-- Behind such a node new methods have the visibility again that they had in front of it. -/
def restoresVisibility (node : SyntaxNode) : Bool :=
  match node.kind with
  | .classDefinition | .moduleDefinition | .singletonClass | .method | .singletonMethod | .block
  | .lambda => true
  | _ => false

end SyntaxNode

namespace Region

/-- The region of a method's body; none if the method has no name. -/
def methodBody? (region : Region) (node : SyntaxNode) (scope : Scope) : Option Region :=
  node.name?.map fun name => region.ofMethod (region.methodClosure name scope) node.span

/-- The region of a definition's body; none if the definition is skipped. -/
def bodyOf? (region : Region) (node : SyntaxNode) : Option Region :=
  match node.kind with
  | .classDefinition | .moduleDefinition =>
      (region.definedPath? node).map fun path => region.ofNamespace path node.span
  | .singletonClass =>
      (node.child? .value).bind fun value =>
        if value.kind = .selfReference then some (region.ofSingletonClass node.span) else none
  | .method => region.methodBody? node region.definitionScope
  | .singletonMethod =>
      (node.child? .object).bind fun object =>
        if object.kind = .selfReference then region.methodBody? node .classLevel else none
  | _ => none

/-- The children of a node that are walked, each in its region. -/
def walked (region : Region) (node : SyntaxNode) : List (Region × SyntaxNode) :=
  match node.kind with
  | .classDefinition | .moduleDefinition | .singletonClass | .method | .singletonMethod =>
      match region.bodyOf? node with
      | some inner => node.statements.map (inner, ·)
      | none => []
  | .assignment | .operatorAssignment =>
      let targets :=
        (node.child? .left).toList.filter fun target => !Survey.isDeclaredTarget target.kind
      (targets ++ (node.child? .right).toList).map (region, ·)
  | .call =>
      match Survey.visibilityCall? region node with
      | some _ => (node.arguments.filter fun argument => !argument.isMethodNameLiteral).map (region, ·)
      | none => node.children.map (region, ·)
  | .identifier => if region.inNamespaceBody then [] else node.children.map (region, ·)
  | .block | .lambda =>
      (node.children.filter fun child => child.field != some .parameters).map
        (region.ofBlock node.span, ·)
  | .other "exception_variable" => []
  | .other "for" =>
      (node.children.filter fun child => child.field != some .pattern).map (region, ·)
  | _ => node.children.map (region, ·)

/-- The visibility that a node in a region asks for by itself. -/
def keyword? (region : Region) (node : SyntaxNode) : Option Visibility :=
  if region.inNamespaceBody then node.keyword? else none

/-- The visibility that a call gives to its arguments. -/
def argumentVisibility? (region : Region) (node : SyntaxNode) : Option Visibility :=
  if node.kind = .call && !node.arguments.isEmpty then
    Survey.visibilityCall? region node
  else
    none

/-- A node whose statements are walked in a region of their own is a definition. -/
theorem kind_of_bodyOf?
    {region inner : Region}
    {node : SyntaxNode}
    (opens : region.bodyOf? node = some inner) :
    node.kind ∈
      [.classDefinition, .moduleDefinition, .singletonClass, .method, .singletonMethod] := by
  unfold bodyOf? at opens
  split at opens
  case h_6 => cases opens
  all_goals
    next isKind => simp [isKind]

/-- The statements of a definition are walked in the region of its body, if it opens one. -/
theorem walked_of_isDefinition
    {region : Region}
    {node : SyntaxNode}
    (isDefinition : node.kind ∈
      [.classDefinition, .moduleDefinition, .singletonClass, .method, .singletonMethod]) :
    region.walked node =
      (region.bodyOf? node).toList.flatMap fun inner => node.statements.map (inner, ·) := by
  unfold walked
  split
  case h_1 | h_2 | h_3 | h_4 | h_5 =>
    cases region.bodyOf? node <;> simp
  all_goals
    simp_all

/-- A walked part of a node is a child, or an argument of a call that sets a visibility. -/
theorem mem_of_mem_walked
    {region inner : Region}
    {node child : SyntaxNode}
    (member : (inner, child) ∈ region.walked node) :
    child ∈ node.children ∨
      node.kind = .call ∧ inner = region ∧
        ∃ list, node.child? .arguments = some list ∧ child ∈ list.statements := by
  unfold walked at member
  split at member
  case h_1 | h_2 | h_3 | h_4 | h_5 =>
    split at member
    · obtain ⟨statement, isStatement, same⟩ := List.mem_map.mp member
      cases same
      exact Or.inl (List.mem_filter.mp isStatement).1
    · cases member
  case h_6 | h_7 =>
    obtain ⟨side, isSide, same⟩ := List.mem_map.mp member
    cases same
    rcases List.mem_append.mp isSide with isTarget | isValue
    · have isLeft := Option.mem_toList.mp (List.mem_filter.mp isTarget).1
      exact Or.inl (SyntaxNode.mem_children_of_child? isLeft)
    · exact Or.inl (SyntaxNode.mem_children_of_child? (Option.mem_toList.mp isValue))
  case h_8 isCall =>
    split at member
    · obtain ⟨argument, isWalked, same⟩ := List.mem_map.mp member
      cases same
      exact Or.inr ⟨isCall, rfl, SyntaxNode.exists_of_mem_arguments (List.mem_filter.mp isWalked).1⟩
    · obtain ⟨part, isChild, same⟩ := List.mem_map.mp member
      cases same
      exact Or.inl isChild
  case h_9 =>
    split at member
    · cases member
    · obtain ⟨part, isChild, same⟩ := List.mem_map.mp member
      cases same
      exact Or.inl isChild
  case h_10 | h_11 | h_13 =>
    obtain ⟨part, isPart, same⟩ := List.mem_map.mp member
    cases same
    exact Or.inl (List.mem_filter.mp isPart).1
  case h_12 =>
    cases member
  case h_14 =>
    obtain ⟨part, isChild, same⟩ := List.mem_map.mp member
    cases same
    exact Or.inl isChild

/-- A walked part of a node stands below it. -/
theorem mem_preorder_of_mem_walked
    {region inner : Region}
    {node child : SyntaxNode}
    (member : (inner, child) ∈ region.walked node) :
    child ∈ node.preorder := by
  rcases mem_of_mem_walked member with isChild | ⟨-, -, list, found, isStatement⟩
  · exact SyntaxNode.mem_preorder_of_mem_children isChild child.mem_preorder_self
  · exact SyntaxNode.mem_preorder_trans (SyntaxNode.mem_preorder_of_child? found)
      (SyntaxNode.mem_preorder_of_mem_children (List.mem_filter.mp isStatement).1
        child.mem_preorder_self)

theorem sizeOf_lt_of_mem_walked
    {region : Region}
    {node : SyntaxNode}
    {part : Region × SyntaxNode}
    (member : part ∈ region.walked node) :
    sizeOf part.2 < sizeOf node := by
  rcases mem_of_mem_walked member with isChild | ⟨-, -, list, found, isStatement⟩
  · exact SyntaxNode.sizeOf_lt_of_mem_children isChild
  · exact (SyntaxNode.sizeOf_lt_of_mem_children (List.mem_filter.mp isStatement).1).trans
      (SyntaxNode.sizeOf_lt_of_mem_children (SyntaxNode.mem_children_of_child? found))

/-- A property of nodes in their regions is proved from the walked parts of a node to the node. -/
theorem walkInduction
    {property : Region → SyntaxNode → Prop}
    (step : ∀ region node, (∀ part ∈ region.walked node, property part.1 part.2) →
      property region node)
    (region : Region)
    (node : SyntaxNode) :
    property region node :=
  step region node fun part _isWalked => walkInduction step part.1 part.2
termination_by sizeOf node
decreasing_by exact sizeOf_lt_of_mem_walked _isWalked

section Visibility

variable {region : Region} {node : SyntaxNode}

/-- A call asks for a visibility by itself if it has no arguments to give it to. -/
theorem keyword?_of_call
    (isCall : node.kind = .call) :
    region.keyword? node =
      if node.arguments.isEmpty then Survey.visibilityCall? region node else none := by
  unfold keyword? SyntaxNode.keyword? Survey.visibilityCall?
  rw [isCall]
  cases region.inNamespaceBody <;> cases (node.child? .receiver).isNone <;>
    cases node.arguments.isEmpty <;> rfl

theorem visibilityCall?_of_argumentVisibility?
    {visibility : Visibility}
    (asked : region.argumentVisibility? node = some visibility) :
    node.kind = .call ∧ Survey.visibilityCall? region node = some visibility := by
  unfold argumentVisibility? at asked
  split at asked
  · next isCall =>
      simp only [Bool.and_eq_true, decide_eq_true_eq] at isCall
      exact ⟨isCall.1, asked⟩
  · cases asked

/-- Of the arguments to which a call gives its visibility, those are walked that name no method. -/
theorem walked_of_argumentVisibility?
    {visibility : Visibility}
    (asked : region.argumentVisibility? node = some visibility) :
    region.walked node =
      (node.arguments.filter fun argument => !argument.isMethodNameLiteral).map (region, ·) := by
  obtain ⟨isCall, asks⟩ := visibilityCall?_of_argumentVisibility? asked
  rw [walked, isCall, asks]

theorem mem_walked_of_argumentVisibility?
    {visibility : Visibility}
    {argument : SyntaxNode}
    (asked : region.argumentVisibility? node = some visibility)
    (member : argument ∈ node.arguments)
    (notLiteral : argument.isMethodNameLiteral = false) :
    (region, argument) ∈ region.walked node := by
  rw [walked_of_argumentVisibility? asked]
  exact List.mem_map_of_mem (List.mem_filter.mpr ⟨member, by rw [notLiteral]; rfl⟩)

end Visibility

end Region

namespace Survey

theorem map_fst_openMethod?
    (survey : Survey)
    (source : SourceLabel)
    (region : Region)
    (node : SyntaxNode)
    (scope : Scope) :
    (survey.openMethod? source region node scope).map Prod.fst = region.methodBody? node scope := by
  cases named : node.name? with
  | none =>
      simp [openMethod?, Region.methodBody?, named]
  | some name =>
      simp [openMethod?, Region.methodBody?, named]

/-- The region of a definition's body does not depend on what was declared before. -/
theorem map_fst_openDefinition?
    (survey : Survey)
    (source : SourceLabel)
    (region : Region)
    (node : SyntaxNode) :
    (survey.openDefinition? source region node).map Prod.fst = region.bodyOf? node := by
  have ofNamespace :
      (survey.openNamespace? source region node).map Prod.fst =
        (region.definedPath? node).map fun path => region.ofNamespace path node.span := by
    cases defined : region.definedPath? node with
    | none =>
        simp [openNamespace?, defined]
    | some path =>
        simp [openNamespace?, defined]
  unfold openDefinition?
  split
  · next isClass =>
      simp only [Region.bodyOf?, isClass, ofNamespace]
  · next isModule =>
      simp only [Region.bodyOf?, isModule, ofNamespace]
  · next isSingleton =>
      simp only [Region.bodyOf?, isSingleton, openSingletonClass?]
      cases node.child? .value with
      | none =>
          rfl
      | some value =>
          by_cases isSelf : value.kind = .selfReference <;> simp [isSelf]
  · next isMethod =>
      simp only [Region.bodyOf?, isMethod, map_fst_openMethod?]
  · next isMethod =>
      simp only [Region.bodyOf?, isMethod]
      cases node.child? .object with
      | none =>
          rfl
      | some object =>
          by_cases isSelf : object.kind = .selfReference <;> simp [isSelf, map_fst_openMethod?]
  · unfold Region.bodyOf?
    split
    case h_6 => rfl
    all_goals contradiction

/-- A definition whose body is walked is opened. -/
theorem openDefinition?_of_bodyOf?
    (survey : Survey)
    (source : SourceLabel)
    {region inner : Region}
    {node : SyntaxNode}
    (body : region.bodyOf? node = some inner) :
    ∃ opened, survey.openDefinition? source region node = some (inner, opened) := by
  rw [← map_fst_openDefinition? survey source, Option.map_eq_some_iff] at body
  obtain ⟨⟨_, opened⟩, entered, rfl⟩ := body
  exact ⟨opened, entered⟩

/-- Declare what a node declares itself, without what stands below it. -/
def enter (survey : Survey) (source : SourceLabel) (region : Region) (node : SyntaxNode) :
    Survey :=
  match node.kind with
  | .classDefinition | .moduleDefinition | .singletonClass | .method | .singletonMethod =>
      match survey.openDefinition? source region node with
      | some (_, opened) => opened
      | none => survey
  | .assignment | .operatorAssignment =>
      match node.child? .left with
      | some target =>
          if isDeclaredTarget target.kind then
            survey.declareTarget source region node target
          else
            survey
      | none => survey
  | .call =>
      match visibilityCall? region node with
      | some _ => survey
      | none =>
          if region.inNamespaceBody && (node.child? .receiver).isNone then
            survey.declareByCall source region node
          else
            survey
  | .block | .lambda => (survey.openBlock source region node).2
  | .other "exception_variable" => survey.declareBound source region node.identifiers node
  | .other "for" => survey.declareLoopTargets source region node
  | _ => survey

variable (source : SourceLabel) (region : Region)

/-- Walk several nodes one after the other. -/
def visitEach (walked : List (Region × SyntaxNode)) (survey : Survey) : Survey :=
  walked.foldl (fun survey part => visit source part.1 part.2 survey) survey

/-- Apply a visibility to an argument. -/
def visitArgument (visibility : Visibility) (survey : Survey) (argument : SyntaxNode) : Survey :=
  if argument.isMethodNameLiteral then
    survey.setVisibility region visibility (symbolName argument.text)
  else
    { visit source region argument { survey with visibility } with
      visibility := survey.visibility }

theorem visitWhere_eq
    (isWalked : SyntaxNode → Bool)
    (nodes : List SyntaxNode)
    (survey : Survey) :
    visitWhere source region isWalked nodes survey =
      visitEach source ((nodes.filter isWalked).map (region, ·)) survey := by
  induction nodes generalizing survey with
  | nil =>
      rfl
  | cons node rest inductionHypothesis =>
      rw [visitWhere, inductionHypothesis, List.filter_cons]
      split <;> rfl

theorem visitFirst_eq
    (field : NodeField)
    (nodes : List SyntaxNode)
    (survey : Survey) :
    visitFirst source region field nodes survey =
      visitEach source ((nodes.find? (·.field = some field)).toList.map (region, ·)) survey := by
  induction nodes with
  | nil =>
      rfl
  | cons node rest inductionHypothesis =>
      rw [visitFirst, List.find?_cons]
      by_cases inRole : node.field = some field
      · rw [if_pos inRole, decide_eq_true inRole]
        rfl
      · rw [if_neg inRole, decide_eq_false inRole]
        exact inductionHypothesis

theorem visitWithVisibility_eq
    (visibility : Visibility)
    (nodes : List SyntaxNode)
    (survey : Survey) :
    visitWithVisibility source region visibility nodes survey =
      (nodes.filter SyntaxNode.isStatement).foldl (visitArgument source region visibility)
        survey := by
  induction nodes generalizing survey with
  | nil =>
      rfl
  | cons argument rest inductionHypothesis =>
      rw [visitWithVisibility, inductionHypothesis, List.filter_cons]
      by_cases isStatement : argument.isStatement <;> simp [isStatement, visitArgument]

theorem visitVisibilityCall_eq
    (visibility : Visibility)
    (nodes : List SyntaxNode)
    (survey : Survey) :
    visitVisibilityCall source region visibility nodes survey =
      ((nodes.find? (·.field = some .arguments)).toList.flatMap SyntaxNode.statements).foldl
        (visitArgument source region visibility) survey := by
  induction nodes with
  | nil =>
      rfl
  | cons node rest inductionHypothesis =>
      obtain ⟨kind, field, text?, comments, span, children⟩ := node
      rw [visitVisibilityCall, List.find?_cons]
      by_cases inRole : field = some .arguments
      · rw [if_pos inRole, visitWithVisibility_eq]
        simp only [inRole, decide_true, Option.toList_some, List.flatMap_singleton,
          SyntaxNode.statements]
      · rw [if_neg inRole, inductionHypothesis]
        simp only [inRole, decide_false]

variable {source} {region}

theorem visitEach_cons
    (part : Region × SyntaxNode)
    (rest : List (Region × SyntaxNode))
    (survey : Survey) :
    visitEach source (part :: rest) survey =
      visitEach source rest (visit source part.1 part.2 survey) :=
  rfl

theorem visitEach_append
    (walked others : List (Region × SyntaxNode))
    (survey : Survey) :
    visitEach source (walked ++ others) survey =
      visitEach source others (visitEach source walked survey) :=
  List.foldl_append

/-- Most nodes leave the visibility of new methods to their parts. -/
theorem visibilityBehind_of_kind
    {node : SyntaxNode}
    (notRestored : node.restoresVisibility = false)
    (notWord : node.kind ≠ .identifier)
    (notCall : node.kind ≠ .call)
    (before behind : Visibility) :
    (if node.restoresVisibility then before else (region.keyword? node).getD behind) = behind := by
  have noKeyword : node.keyword? = none := by
    unfold SyntaxNode.keyword?
    split
    · next isWord => exact absurd isWord notWord
    · next isCall => exact absurd isCall notCall
    · rfl
  rw [notRestored, if_neg Bool.false_ne_true, Region.keyword?, noKeyword]
  split <;> rfl

/-- A call that gives its visibility to nothing has no arguments. -/
theorem arguments_of_argumentVisibility?_eq_none
    {node : SyntaxNode}
    {visibility : Visibility}
    (isCall : node.kind = .call)
    (notGiven : region.argumentVisibility? node = none)
    (asked : visibilityCall? region node = some visibility) :
    node.arguments = [] := by
  rw [Region.argumentVisibility?, isCall, asked] at notGiven
  cases arguments : node.arguments with
  | nil =>
      rfl
  | cons argument rest =>
      rw [arguments] at notGiven
      cases notGiven

/-- A call that gives its visibility to its arguments declares nothing itself. -/
theorem enter_of_argumentVisibility?
    {visibility : Visibility}
    {node : SyntaxNode}
    (asked : region.argumentVisibility? node = some visibility)
    (survey : Survey) :
    survey.enter source region node = survey := by
  obtain ⟨isCall, asks⟩ := Region.visibilityCall?_of_argumentVisibility? asked
  rw [enter, isCall, asks]

/-- A call with a visibility applies it to its arguments, one after the other. -/
theorem visit_of_argumentVisibility?
    {visibility : Visibility}
    {node : SyntaxNode}
    (asked : region.argumentVisibility? node = some visibility)
    (survey : Survey) :
    visit source region node survey =
      node.arguments.foldl (visitArgument source region visibility) survey := by
  obtain ⟨kind, field, text?, comments, span, children⟩ := node
  unfold Region.argumentVisibility? at asked
  split at asked
  · next isCall =>
      simp only [Bool.and_eq_true, decide_eq_true_eq, Bool.not_eq_true'] at isCall
      obtain ⟨rfl, notEmpty⟩ := isCall
      rw [visit, asked]
      dsimp only
      rw [notEmpty, if_neg Bool.false_ne_true, visitVisibilityCall_eq, SyntaxNode.arguments_eq]
      rfl
  · cases asked

/--
Any other node is entered, and then its parts are walked.  The visibility behind it is the one in
front of it if the node restores it, or the one that the node asks for.
-/
theorem visit_of_argumentVisibility?_eq_none
    {node : SyntaxNode}
    (notAsked : region.argumentVisibility? node = none)
    (survey : Survey) :
    visit source region node survey =
      let behind := visitEach source (region.walked node) (survey.enter source region node)
      { behind with
        visibility :=
          if node.restoresVisibility then
            survey.visibility
          else
            (region.keyword? node).getD behind.visibility } := by
  have noKeyword := @visibilityBehind_of_kind region node
  obtain ⟨kind, field, text?, comments, span, children⟩ := node
  unfold visit
  dsimp only
  split
  case h_1 | h_2 | h_3 | h_4 | h_5 =>
    -- Definitions.
    dsimp only [Survey.enter, Region.walked, SyntaxNode.restoresVisibility, SyntaxNode.statements]
    rw [← map_fst_openDefinition? survey source]
    cases entered : survey.openDefinition? source region _ with
    | none =>
        rfl
    | some opening =>
        dsimp only [Option.map_some]
        rw [visitWhere_eq]
        rfl
  case h_6 | h_7 =>
    -- Assignments.
    rw [noKeyword rfl (by simp) (by simp)]
    dsimp only [Survey.enter, Region.walked, SyntaxNode.child?]
    rw [visitFirst_eq, List.map_append, visitEach_append]
    cases found : children.find? (·.field = some .left) with
    | none =>
        rfl
    | some target =>
        dsimp only
        by_cases declared : isDeclaredTarget target.kind
        · simp [declared, visitEach]
        · rw [visitFirst_eq, found]
          simp [declared, visitEach]
  case h_8 =>
    -- Calls.
    dsimp only [Survey.enter, Region.walked]
    rw [Region.keyword?_of_call rfl]
    cases asked : visibilityCall? region _ with
    | some visibility =>
        have noArguments := arguments_of_argumentVisibility?_eq_none rfl notAsked asked
        dsimp only
        rw [List.isEmpty_iff.mpr noArguments, if_pos rfl, if_pos rfl, noArguments]
        rfl
    | none =>
        dsimp only
        rw [visitWhere_eq, List.filter_eq_self.mpr fun _ _ => rfl, ite_self]
        rfl
  case h_9 =>
    -- Words.
    dsimp only [Survey.enter, Region.walked]
    by_cases inBody : region.inNamespaceBody
    · simp [SyntaxNode.restoresVisibility, Region.keyword?, SyntaxNode.keyword?, inBody, visitEach]
    · rw [visitWhere_eq, List.filter_eq_self.mpr fun _ _ => rfl]
      simp [SyntaxNode.restoresVisibility, Region.keyword?, inBody]
  case h_10 | h_11 =>
    dsimp only [Survey.enter, Region.walked, SyntaxNode.restoresVisibility]
    rw [visitWhere_eq]
    rfl
  case h_12 =>
    rw [noKeyword rfl (by simp) (by simp)]
    rfl
  case h_13 =>
    rw [noKeyword rfl (by simp) (by simp), visitWhere_eq]
    rfl
  case h_14 =>
    have notRestored :
        SyntaxNode.restoresVisibility ⟨kind, field, text?, comments, span, children⟩ = false := by
      unfold SyntaxNode.restoresVisibility
      dsimp only
      split
      case h_8 => rfl
      all_goals contradiction
    have entersNothing :
        survey.enter source region ⟨kind, field, text?, comments, span, children⟩ = survey := by
      unfold Survey.enter
      dsimp only
      split
      case h_13 => rfl
      all_goals contradiction
    have walksAll :
        region.walked ⟨kind, field, text?, comments, span, children⟩ =
          children.map (region, ·) := by
      unfold Region.walked
      dsimp only
      split
      case h_14 => rfl
      all_goals contradiction
    rw [noKeyword notRestored (by assumption) (by assumption), visitWhere_eq, entersNothing,
      walksAll, List.filter_eq_self.mpr fun _ _ => rfl]

end Survey

end TagCheck
