import TagCheck.Proofs.Outline.Steps

namespace TagCheck

/-!
# A survey takes the steps of its program

What a survey lists is what the steps of its program list, and every method has the visibility that
the tree gives it.
-/

namespace Region

variable {region : Region} {node : SyntaxNode}

/-- A call with a visibility declares nothing itself. -/
theorem declarations_of_visibilityCall?
    {visibility : Visibility}
    (isCall : node.kind = .call)
    (asks : Survey.visibilityCall? region node = some visibility) :
    region.declarations node = [] := by
  rw [declarations, isCall, asks]
  rfl

/-- Behind every definition the visibility of new methods is restored. -/
theorem bodyOf?_of_not_restoresVisibility
    (notRestored : node.restoresVisibility = false) :
    region.bodyOf? node = none := by
  unfold SyntaxNode.restoresVisibility at notRestored
  unfold bodyOf?
  split
  case h_6 => rfl
  all_goals
    next isDefinition =>
      rw [isDefinition] at notRestored
      cases notRestored

/-- Nothing is walked below a keyword. -/
theorem walked_of_keyword?
    {visibility : Visibility}
    (asks : region.keyword? node = some visibility) :
    region.walked node = [] := by
  have inBody : region.inNamespaceBody = true := by
    by_contra notInBody
    rw [keyword?, if_neg notInBody] at asks
    cases asks
  by_cases isCall : node.kind = .call
  · rw [keyword?_of_call isCall] at asks
    split at asks
    · next noArguments =>
        rw [walked, isCall, asks, List.isEmpty_iff.mp noArguments]
        rfl
    · cases asks
  · rw [keyword?, if_pos inBody, SyntaxNode.keyword?] at asks
    split at asks
    · next isWord =>
        rw [walked, isWord, inBody]
        rfl
    · next isCall' => exact absurd isCall' isCall
    · cases asks

end Region

namespace Survey

variable {source : SourceLabel} {region : Region}

/-- A survey has taken steps, and new methods have a visibility behind them. -/
structure Takes (before after : Survey) (steps : List Step) (behind : Visibility) : Prop where
  entries : after.entries = steps.foldl Step.take before.entries
  visibility : after.visibility = behind

namespace Takes

theorem trans
    {before middle after : Survey}
    {steps others : List Step}
    {behind last : Visibility}
    (first : Takes before middle steps behind)
    (second : Takes middle after others last) :
    Takes before after (steps ++ others) last where
  entries := by rw [second.entries, first.entries, List.foldl_append]
  visibility := second.visibility

/-- Nodes that are walked one after the other take their steps one after the other. -/
theorem visitEach
    {walked : List (Region × SyntaxNode)}
    (each : ∀ part ∈ walked, ∀ survey : Survey,
      Takes survey (visit source part.1 part.2 survey) (part.1.steps survey.visibility part.2)
        (part.1.visibilityBehind survey.visibility part.2))
    (survey : Survey) :
    Takes survey (Survey.visitEach source walked survey)
      (Region.stepsThrough survey.visibility walked)
      (Region.visibilityThrough survey.visibility walked) := by
  induction walked generalizing survey with
  | nil =>
      exact ⟨rfl, rfl⟩
  | cons part rest inductionHypothesis =>
      have first := each part List.mem_cons_self survey
      have behind := inductionHypothesis (fun part member => each part (List.mem_cons_of_mem _ member))
        (visit source part.1 part.2 survey)
      rw [first.visibility] at behind
      rw [Region.stepsThrough_cons, Region.visibilityThrough_cons]
      exact first.trans behind

/-- A visibility is applied to the arguments of a call one after the other. -/
theorem visitArguments
    (source : SourceLabel)
    (visibility : Visibility)
    {arguments : List SyntaxNode}
    (each : ∀ argument ∈ arguments, argument.isMethodNameLiteral = false → ∀ survey : Survey,
      Takes survey (visit source region argument survey) (region.steps survey.visibility argument)
        (region.visibilityBehind survey.visibility argument))
    (survey : Survey) :
    Takes survey (arguments.foldl (visitArgument source region visibility) survey)
      ((arguments.map (region.argumentStep visibility)).flatMap Step.expand)
      survey.visibility := by
  induction arguments generalizing survey with
  | nil =>
      exact ⟨rfl, rfl⟩
  | cons argument rest inductionHypothesis =>
      have first : Takes survey (visitArgument source region visibility survey argument)
          (region.argumentStep visibility argument).expand survey.visibility := by
        unfold visitArgument Region.argumentStep
        by_cases isLiteral : argument.isMethodNameLiteral
        · rw [if_pos isLiteral, if_pos isLiteral, Step.expand]
          exact ⟨entries_setVisibility survey region visibility _, rfl⟩
        · rw [if_neg isLiteral, if_neg isLiteral]
          exact ⟨(each argument List.mem_cons_self (Bool.eq_false_iff.mpr isLiteral)
            { survey with visibility }).entries, rfl⟩
      have behind := inductionHypothesis
        (fun argument member => each argument (List.mem_cons_of_mem _ member))
        (visitArgument source region visibility survey argument)
      rw [first.visibility] at behind
      exact first.trans behind

/-- The walk over a node takes the steps of the node. -/
theorem visit
    (source : SourceLabel)
    (region : Region)
    (node : SyntaxNode)
    (survey : Survey) :
    Takes survey (Survey.visit source region node survey) (region.steps survey.visibility node)
      (region.visibilityBehind survey.visibility node) := by
  induction region, node using Region.walkInduction generalizing survey with
  | step region node inductionHypothesis =>
      rw [Region.steps_eq, Region.parts, Region.visibilityBehind, Region.heard_eq]
      cases asked : region.argumentVisibility? node with
      | some visibility =>
          obtain ⟨isCall, asks⟩ := Region.visibilityCall?_of_argumentVisibility? asked
          have taken := visitArguments source visibility
            (fun argument member notLiteral survey =>
              inductionHypothesis (region, argument)
                (Region.mem_walked_of_argumentVisibility? asked member notLiteral) survey)
            survey
          rw [Option.isSome_some, Bool.or_true, if_pos rfl, visit_of_argumentVisibility? asked]
          refine ⟨?_, taken.visibility⟩
          rw [taken.entries, List.foldl_cons, Step.take,
            Region.declarations_of_visibilityCall? isCall asks]
          exact congrArg (List.foldl _ · _) (List.append_nil _).symm
      | none =>
          have taken := visitEach inductionHypothesis (survey.enter source region node)
          rw [visit_of_argumentVisibility?_eq_none asked, Option.isSome_none, Bool.or_false]
          constructor
          · rw [visibility_enter] at taken
            rw [List.foldl_cons, ← entries_enter survey source]
            exact taken.entries
          · dsimp only
            rw [taken.visibility, visibility_enter]
            by_cases restores : node.restoresVisibility
            · rw [if_pos restores, if_pos restores]
              rfl
            · rw [if_neg restores, if_neg restores,
                Region.bodyOf?_of_not_restoresVisibility (Bool.eq_false_iff.mpr restores)]
              cases keyword : region.keyword? node with
              | none =>
                  rfl
              | some visibility =>
                  rw [Region.walked_of_keyword? keyword]
                  rfl

end Takes

/-- The survey of a program lists what the steps of the program list. -/
theorem entries_ofProgram
    (source : SourceLabel)
    (root : SyntaxNode) :
    (ofProgram source root).entries = root.steps.foldl Step.take [] := by
  unfold ofProgram SyntaxNode.steps
  rw [visitWhere_eq, List.filter_eq_self.mpr fun _ _ => rfl]
  exact (Takes.visitEach (fun part _ => Takes.visit source part.1 part.2) _).entries

/-- The survey of a program finds what its steps declare. -/
theorem map_ofPin_ofProgram
    (source : SourceLabel)
    (root : SyntaxNode) :
    (ofProgram source root).pins.reverse.map Declaration.ofPin =
      root.steps.flatMap Step.declarations := by
  have listed := Step.map_declaration_foldl_take root.steps []
  rw [← entries_ofProgram source, entries, List.map_map] at listed
  exact listed

end Survey

end TagCheck
