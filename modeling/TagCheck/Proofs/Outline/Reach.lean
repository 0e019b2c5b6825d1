import TagCheck.Outline.Basic
import TagCheck.Proofs.Outline.Walk

namespace TagCheck

/-!
# Where a survey walks

Every walked node of a program is reached by its survey, whatever was declared before.  What the walk
over the node brings about is kept to the end of the survey.
-/

/-- A node of a program is walked in a region. -/
inductive SyntaxNode.Walks (root : SyntaxNode) : Region → SyntaxNode → Prop
  | statement {node : SyntaxNode} (member : node ∈ root.children) :
      Walks root (.ofProgram root.span) node
  | part {region inner : Region} {node child : SyntaxNode} (walks : Walks root region node)
      (member : (inner, child) ∈ region.walked node) :
      Walks root inner child

namespace Survey

namespace IsKept

variable {source : SourceLabel} {property : Survey → Prop}
variable (kept : IsKept source property)
include kept

/-- What one of the walked nodes brings about is kept. -/
theorem visitEach_of_mem
    {walked : List (Region × SyntaxNode)}
    {part : Region × SyntaxNode}
    (member : part ∈ walked)
    (reached : ∀ survey, property (Survey.visit source part.1 part.2 survey))
    (survey : Survey) :
    property (Survey.visitEach source walked survey) := by
  obtain ⟨before, behind, rfl⟩ := List.append_of_mem member
  rw [visitEach_append, visitEach_cons]
  exact visitEach (fun part _ => kept.visit part.1 part.2) (reached _)

theorem visitArguments_of_mem
    {region : Region}
    {visibility : Visibility}
    {arguments : List SyntaxNode}
    {argument : SyntaxNode}
    (member : argument ∈ arguments)
    (notLiteral : argument.isMethodNameLiteral = false)
    (reached : ∀ survey, property (Survey.visit source region argument survey))
    (survey : Survey) :
    property (arguments.foldl (visitArgument source region visibility) survey) := by
  obtain ⟨before, behind, rfl⟩ := List.append_of_mem member
  rw [List.foldl_append, List.foldl_cons]
  refine kept.visitArguments visibility (fun argument _ _ => kept.visit region argument) ?_
  rw [visitArgument, if_neg (Bool.eq_false_iff.mp notLiteral)]
  exact kept.withVisibility _ (reached _)

/-- What the walk over a child brings about is kept by the walk over its parent. -/
theorem visit_of_walked
    {region inner : Region}
    {node child : SyntaxNode}
    (member : (inner, child) ∈ region.walked node)
    (reached : ∀ survey, property (Survey.visit source inner child survey))
    (survey : Survey) :
    property (Survey.visit source region node survey) := by
  cases asked : region.argumentVisibility? node with
  | some visibility =>
      rw [Region.walked_of_argumentVisibility? asked] at member
      obtain ⟨argument, isWalked, same⟩ := List.mem_map.mp member
      cases same
      obtain ⟨isArgument, notLiteral⟩ := List.mem_filter.mp isWalked
      rw [visit_of_argumentVisibility? asked]
      exact kept.visitArguments_of_mem isArgument (by simpa using notLiteral) reached survey
  | none =>
      rw [visit_of_argumentVisibility?_eq_none asked]
      exact kept.withVisibility _ (kept.visitEach_of_mem member reached _)

/-- What the walk over a node of a program brings about is kept to the end. -/
theorem ofProgram_of_walks
    {root node : SyntaxNode}
    {region : Region}
    (walks : root.Walks region node)
    (reached : ∀ survey, property (Survey.visit source region node survey)) :
    property (Survey.ofProgram source root) := by
  induction walks with
  | statement member =>
      rw [Survey.ofProgram, visitWhere_eq, List.filter_eq_self.mpr fun _ _ => rfl]
      exact kept.visitEach_of_mem (List.mem_map_of_mem member) reached _
  | part _ member inductionHypothesis =>
      exact inductionHypothesis (kept.visit_of_walked member reached)

end IsKept

section Declared

variable {isMeant : Pin → Prop}

/-- Another visibility changes nothing but methods. -/
theorem mem_setVisibilityOfFirst
    {visibility : Visibility}
    {isFirst : Pin → Bool}
    {pins : List Pin}
    {pin : Pin}
    (member : pin ∈ pins)
    (notMethod : ∀ detail, pin.kind ≠ .method detail) :
    pin ∈ setVisibilityOfFirst visibility isFirst pins := by
  induction pins with
  | nil =>
      cases member
  | cons first rest inductionHypothesis =>
      unfold setVisibilityOfFirst
      rcases List.mem_cons.mp member with rfl | inRest
      · split
        · split
          · next detail isMethod =>
              exact absurd isMethod (notMethod detail)
          · exact member
        · exact List.mem_cons_self
      · split
        · split
          · exact List.mem_cons_of_mem _ inRest
          · exact member
        · exact List.mem_cons_of_mem _ (inductionHypothesis inRest)

/-- A method is declared behind all other pins. -/
theorem exists_pins_openMethod?
    {survey opened : Survey}
    {source : SourceLabel}
    {region inner : Region}
    {node : SyntaxNode}
    {scope : Scope}
    (entered : survey.openMethod? source region node scope = some (inner, opened)) :
    ∃ method, opened.pins = method :: survey.pins := by
  cases named : node.name? with
  | none =>
      simp [openMethod?, named] at entered
  | some name =>
      simp only [openMethod?, named, Option.bind_eq_bind, Option.bind_some, Option.pure_def,
        Option.some.injEq, Prod.mk.injEq] at entered
      obtain ⟨-, rfl⟩ := entered
      split
      · exact ⟨_, rfl⟩
      · exact ⟨_, rfl⟩

/-- A declaration that is no method stays as it is. -/
theorem isKept_exists_pin
    (source : SourceLabel)
    (notMethod : ∀ pin, isMeant pin → ∀ detail, pin.kind ≠ .method detail) :
    IsKept source fun survey => ∃ pin ∈ survey.pins, isMeant pin where
  withVisibility _ := id
  openHardScope _ := id
  declare _ _ _ _ _ _ := fun _ ⟨pin, member, meant⟩ =>
    ⟨pin, List.mem_cons_of_mem _ member, meant⟩
  declareLocal _ _ _ _ := id
  declareParameters _ _ _ _ _ := id
  openMethod? entered := fun ⟨pin, member, meant⟩ => by
    obtain ⟨method, samePins⟩ := exists_pins_openMethod? entered
    rw [samePins]
    exact ⟨pin, List.mem_cons_of_mem _ member, meant⟩
  declareReader _ _ _ _ := fun ⟨pin, member, meant⟩ =>
    ⟨pin, List.mem_cons_of_mem _ member, meant⟩
  declareWriter _ _ _ _ := fun ⟨pin, member, meant⟩ =>
    ⟨pin, List.mem_cons_of_mem _ member, meant⟩
  setVisibility _ _ _ := fun ⟨pin, member, meant⟩ =>
    ⟨pin, mem_setVisibilityOfFirst member (notMethod pin meant), meant⟩

end Declared

end Survey

end TagCheck
