import TagCheck.Proofs.Outline.Path
import TagCheck.Proofs.Snapshot

namespace TagCheck

open ConstantPath (IsPlain along firstName)

namespace Index

/-!
# What an absolute name refers to

An absolute name is searched like any other one, in the context of the top level: its first name in
the ancestors of the top level and then at the top level itself, and each further name in the
namespace found so far and in its ancestors.  So it refers to its own path if every namespace on the
way is declared and the first name is found nowhere else.
-/

/-- The namespaces in which a name is searched before the top level. -/
def searchedBeforeTop (index : Index) (context : String) : List String :=
  (index.gatesOf context ++ (index.ancestors context).filter (· ≠ "Object")).filter (· ≠ "")

/-- A name is found in a context before it is searched at the top level. -/
def isShadowed (index : Index) (context name : String) : Bool :=
  (index.searchedBeforeTop context).any fun outer => index.isDeclared (joinPath outer name)

section Names

variable {index : Index} {context name : String}

theorem length_lt_joinPath
    {outer : String}
    (notRoot : outer ≠ "") :
    name.length < (joinPath outer name).length := by
  have joined : joinPath outer name = outer ++ "::" ++ name := if_neg notRoot
  rw [joined, String.length_append, String.length_append]
  have separated : "::".length = 2 := rfl
  omega

/-- A single name is searched in the nesting, then in the ancestors, and then at the top level. -/
theorem qualifyHead?_eq_find? :
    index.qualifyHead? name context =
      ((index.searchedBeforeTop context).map (joinPath · name) ++ [name]).find?
        index.isDeclared := by
  have ancestors : ((index.ancestors context).filter fun path => path ≠ "" && path ≠ "Object") =
      ((index.ancestors context).filter (· ≠ "Object")).filter (· ≠ "") := by
    simp [List.filter_filter]
  rw [searchedBeforeTop, List.filter_append, List.map_append, List.find?_append, List.find?_append,
    List.find?_singleton, ← ancestors]
  unfold qualifyHead?
  dsimp only
  split
  · next path found =>
      rw [found, Option.some_or, Option.some_or]
  · next missing =>
      rw [missing, Option.none_or]
      split
      · next path found =>
          rw [found, Option.some_or]
      · next missing =>
          rw [missing, Option.none_or]

theorem isShadowed_eq_false_iff :
    index.isShadowed context name = false ↔
      ((index.searchedBeforeTop context).map (joinPath · name)).find? index.isDeclared = none := by
  simp [isShadowed]

/-- A single name refers to itself exactly if it is declared and found nowhere before. -/
theorem qualifyHead?_eq_self_iff :
    index.qualifyHead? name context = some name ↔
      index.isDeclared name = true ∧ index.isShadowed context name = false := by
  rw [qualifyHead?_eq_find?, List.find?_append, isShadowed_eq_false_iff]
  constructor
  · intro found
    have unshadowed : ((index.searchedBeforeTop context).map (joinPath · name)).find?
        index.isDeclared = none := by
      by_contra shadowed
      obtain ⟨path, isFirst⟩ := Option.ne_none_iff_exists'.mp shadowed
      rw [isFirst, Option.some_or, Option.some_inj] at found
      obtain ⟨outer, member, joined⟩ := List.mem_map.mp (List.mem_of_find?_eq_some isFirst)
      have notRoot : outer ≠ "" := by
        simpa using (List.mem_filter.mp member).2
      -- The name inside another namespace is longer than the name alone.
      have longer : name.length < (joinPath outer name).length := length_lt_joinPath notRoot
      rw [joined, found] at longer
      exact Nat.lt_irrefl _ longer
    rw [unshadowed, Option.none_or] at found
    exact ⟨List.find?_some found, unshadowed⟩
  · rintro ⟨declared, unshadowed⟩
    rw [unshadowed, Option.none_or, List.find?_singleton, if_pos declared]

end Names

section Paths

variable {index : Index} {path context : String}

/-- The first name of a path is searched in the context, and the others in what is found. -/
theorem qualifyRelative?_eq_bind :
    index.qualifyRelative? path context =
      (index.qualifyHead? (firstName path) context).bind
        ((ConstantPath.parts path).tail.foldlM index.qualifyMember?) := by
  unfold qualifyRelative?
  split
  · next unsplit =>
      have single := ConstantPath.parts_of_splitFirst?_eq_none unsplit
      rw [firstName, single, List.headD_cons, List.tail_cons]
      cases index.qualifyHead? path context <;> rfl
  · next head rest split =>
      have names := ConstantPath.parts_of_splitFirst?_eq_some split
      rw [firstName, names, List.headD_cons, List.tail_cons]
      rfl

/-- Names are found one inside the other if the paths that they make are declared. -/
theorem foldlM_qualifyMember?_eq_some
    {names : List String}
    {head : String}
    (declared : ∀ fewer, fewer <+: names → index.isDeclared (fewer.foldl joinPath head) = true) :
    names.foldlM index.qualifyMember? head = some (names.foldl joinPath head) := by
  induction names generalizing head with
  | nil =>
      rfl
  | cons name rest inductionHypothesis =>
      have isMember : index.qualifyMember? head name = some (joinPath head name) :=
        if_pos (declared [name] (List.prefix_append [name] rest))
      have further : rest.foldlM index.qualifyMember? (joinPath head name) =
          some (rest.foldl joinPath (joinPath head name)) := by
        apply inductionHypothesis
        intro fewer isPrefix
        exact declared (name :: fewer) (List.cons_prefix_cons.mpr ⟨rfl, isPrefix⟩)
      rw [List.foldlM_cons, isMember]
      exact further

/-- A path of declared namespaces refers to itself unless its first name is shadowed. -/
theorem qualifyRelative?_eq_self
    (plain : IsPlain path)
    (declared : ∀ outer ∈ along path, index.isDeclared outer = true)
    (unshadowed : index.isShadowed context (firstName path) = false) :
    index.qualifyRelative? path context = some path := by
  have first : index.qualifyHead? (firstName path) context = some (firstName path) :=
    qualifyHead?_eq_self_iff.mpr
      ⟨declared _ (ConstantPath.firstName_mem_along path), unshadowed⟩
  have others : (ConstantPath.parts path).tail.foldlM index.qualifyMember? (firstName path) =
      some path := by
    rw [foldlM_qualifyMember?_eq_some, ConstantPath.foldl_joinPath_tail plain.named]
    intro fewer isPrefix
    exact declared _ (ConstantPath.mem_along_iff.mpr ⟨fewer, isPrefix, rfl⟩)
  rw [qualifyRelative?_eq_bind, first, Option.bind_some, others]

theorem isDeclared_of_qualifyMember?
    {outer name found : String}
    (isFound : index.qualifyMember? outer name = some found) :
    index.isDeclared found = true := by
  unfold qualifyMember? at isFound
  split at isFound
  · next declared =>
      rwa [← Option.some_inj.mp isFound]
  · exact List.find?_some isFound

theorem isDeclared_of_foldlM_qualifyMember?
    {names : List String}
    {head found : String}
    (declared : index.isDeclared head = true)
    (isFound : names.foldlM index.qualifyMember? head = some found) :
    index.isDeclared found = true := by
  induction names generalizing head with
  | nil =>
      rwa [← Option.some_inj.mp isFound]
  | cons name rest inductionHypothesis =>
      rw [List.foldlM_cons, Option.bind_eq_bind, Option.bind_eq_some_iff] at isFound
      obtain ⟨inner, isInner, further⟩ := isFound
      exact inductionHypothesis (isDeclared_of_qualifyMember? isInner) further

/-- Whatever a name refers to is declared. -/
theorem isDeclared_of_qualifyRelative?
    {found : String}
    (isFound : index.qualifyRelative? path context = some found) :
    index.isDeclared found = true := by
  rw [qualifyRelative?_eq_bind, Option.bind_eq_some_iff] at isFound
  obtain ⟨head, isHead, further⟩ := isFound
  rw [qualifyHead?_eq_find?] at isHead
  exact isDeclared_of_foldlM_qualifyMember? (List.find?_some isHead) further

/--
All paths along a path refer to themselves exactly if they are declared and the first name is found
nowhere before the top level.
-/
theorem qualifyRelative?_along_iff
    (plain : IsPlain path) :
    (∀ outer ∈ along path, index.qualifyRelative? outer context = some outer) ↔
      (∀ outer ∈ along path, index.isDeclared outer = true) ∧
        index.isShadowed context (firstName path) = false := by
  constructor
  · intro found
    refine ⟨?_, ?_⟩
    · intro outer member
      exact isDeclared_of_qualifyRelative? (found outer member)
    · have member := ConstantPath.firstName_mem_along path
      have single := ConstantPath.parts_firstName plain.named
      have isHead : index.qualifyHead? (firstName path) context = some (firstName path) := by
        have first := found _ member
        rw [qualifyRelative?_eq_bind, plain.firstName_eq member, single] at first
        simpa using first
      exact (qualifyHead?_eq_self_iff.mp isHead).2
  · rintro ⟨declared, unshadowed⟩ outer member
    refine qualifyRelative?_eq_self (plain.of_mem_along member) ?_ ?_
    · intro further isFurther
      exact declared further (plain.along_subset member isFurther)
    · rwa [plain.firstName_eq member]

/-- A path that is written without double colons in front is searched in its context. -/
theorem qualifyWithin?_of_plain
    (plain : IsPlain path)
    (limit : Nat) :
    index.qualifyWithin? (limit + 1) path context = index.qualifyRelative? path context := by
  have trimmed := plain.trimmed path plain.mem_along_self
  simp only [qualifyWithin?, trimmed, plain.notEmpty, if_false, plain.relative]

theorem qualify?_of_plain
    (plain : IsPlain path) :
    index.qualify? path context = index.qualifyRelative? path context :=
  qualifyWithin?_of_plain plain path.length

/-- A path with double colons in front is searched at the top level. -/
theorem qualify?_absolute
    (plain : IsPlain path) :
    index.qualify? ("::" ++ path) context = index.qualifyRelative? path "" := by
  have trimmed := ConstantPath.trimmed_colons plain.notEmpty
    (plain.trimmed path plain.mem_along_self)
  have notEmpty : "::" ++ path ≠ "" := by
    intro isEmpty
    have noText := congrArg String.toList isEmpty
    simp at noText
  have length : ("::" ++ path).length + 1 = path.length + 1 + 1 + 1 := by
    rw [String.length_append, Nat.add_comm "::".length]
    rfl
  rw [qualify?, length, qualifyWithin?]
  simp only [trimmed, notEmpty, if_false, ConstantPath.absolute?_colons]
  exact qualifyWithin?_of_plain plain _

end Paths

/--
All absolute names along a path refer to their own paths exactly if these are declared and the first
name is found nowhere before the top level.
-/
theorem qualify?_absolute_along_iff
    {index : Index}
    {path : String}
    (plain : IsPlain path) :
    (∀ outer ∈ along path, ∀ context, index.qualify? ("::" ++ outer) context = some outer) ↔
      (∀ outer ∈ along path, index.isDeclared outer = true) ∧
        index.isShadowed "" (firstName path) = false := by
  have searched : ∀ outer ∈ along path, ∀ context,
      index.qualify? ("::" ++ outer) context = index.qualifyRelative? outer "" := by
    intro outer member context
    exact qualify?_absolute (plain.of_mem_along member)
  rw [← qualifyRelative?_along_iff plain]
  constructor
  · intro named outer member
    rw [← searched outer member ""]
    exact named outer member ""
  · intro found outer member context
    rw [searched outer member context]
    exact found outer member

end Index

namespace IncludedName

open Stub.Layout

/--
A module `Tools` with a class `Task` inside, which is included at the top level, and a class `Task`
at the top level itself.
-/
def source : Source where
  filename := "task.rb"
  root :=
    branch .program none ⟨0, 0⟩ ⟨5, 0⟩
      [branch .moduleDefinition none ⟨0, 0⟩ ⟨2, 3⟩
        [leaf .constant (some .name) ⟨0, 7⟩ "Tools",
          branch .classDefinition none ⟨1, 2⟩ ⟨1, 17⟩
            [leaf .constant (some .name) ⟨1, 8⟩ "Task"]],
        inclusionNode ⟨3, 0⟩ "Tools",
        branch .classDefinition none ⟨4, 0⟩ ⟨4, 15⟩ [leaf .constant (some .name) ⟨4, 6⟩ "Task"]]
  isParsed := true

/-- The declarations of the source. -/
def pins : List Pin :=
  (Outline.ofSource 1 source).pins

theorem isPlain_task :
    IsPlain "Tools::Task" where
  notEmpty := by decide
  relative := by decide
  trimmed := by decide +kernel

/-- The name `::Tools::Task` means the class inside the module, wherever it is written. -/
theorem qualify?_tools_task :
    IsPlain "Tools::Task" ∧
      ∀ outer ∈ along "Tools::Task", ∀ context,
        (Index.ofPins pins).qualify? ("::" ++ outer) context = some outer := by
  refine ⟨isPlain_task, (Index.qualify?_absolute_along_iff isPlain_task).mpr ?_⟩
  rw [Index.ofPins_eq_ofList]
  decide +kernel

/-- The name `::Task` does not mean the class at the top level, but the one inside the module. -/
theorem qualify?_absolute_not_self :
    ¬∀ (pins : List Pin) (path : String), path ≠ "" → (Index.ofPins pins).isNamespace path = true →
      ∀ context, (Index.ofPins pins).qualify? ("::" ++ path) context = some path := by
  intro allThemselves
  have found : (Index.ofPins pins).isNamespace "Task" = true ∧
      (Index.ofPins pins).qualify? "::Task" "" = some "Tools::Task" := by
    rw [Index.ofPins_eq_ofList]
    decide +kernel
  obtain ⟨declared, shadowed⟩ := found
  have itself := allThemselves pins "Task" (by decide) declared ""
  have absolute : "::" ++ "Task" = "::Task" := rfl
  rw [absolute, shadowed] at itself
  exact absurd itself (by decide)

end IncludedName

end TagCheck
