import TagCheck.Proofs.Index.Reachability

namespace TagCheck

open Relation (ReflTransGen)

namespace Index

/-!
# The class side of a closed namespace

Class methods are looked up on a class and its superclasses, in the modules that extend them, with
what these mix in, and at last among the ancestors of `Class` or `Module`.  Whether a namespace is
open depends on its own ancestors alone.  So its class side is complete exactly when no further part
of it has an unresolved reference or answers to missing methods.
-/

/-- A class hands the look-up of class methods on to its superclass. -/
def Inherits (index : Index) (path superclass : String) : Prop :=
  index.namespaceKind? path = some .classNamespace ∧ index.superclassOf? path = some superclass

/-- The class whose instance a namespace is. -/
def metaclassOf (index : Index) (path : String) : String :=
  if index.namespaceKind? path = some .moduleNamespace then "Module" else "Class"

/-- Class methods of a path are looked up in a namespace on a level. -/
inductive OnClassSide (index : Index) (path : String) : String → Scope → Prop
  | inherited {name : String} (inherits : ReflTransGen index.Inherits path name) :
      OnClassSide index path name .classLevel
  | extended {owner extension name : String} (inherits : ReflTransGen index.Inherits path owner)
      (isExtension : extension ∈ index.mixins owner .extension)
      (mixes : ReflTransGen index.Mixes extension name) :
      OnClassSide index path name .instanceLevel
  | metaclass {name : String} (member : name ∈ index.ancestors (index.metaclassOf path)) :
      OnClassSide index path name .instanceLevel

/-- A namespace itself has a method of a level for all methods that are missing. -/
def AnswersMissing (index : Index) (name : String) (level : Scope) : Prop :=
  ∃ pin ∈ index.ownMethods name level, pin.name = "method_missing"

/--
What is looked up in a namespace on a level may not all be known, and the ancestors of the path do
not tell.
-/
def IsGap (index : Index) (path name : String) (level : Scope) : Prop :=
  (name ∉ index.ancestors path ∧ index.hasUnresolvedReference name = true) ∨
    ((name ∉ index.ancestors path ∨ level = .classLevel) ∧ index.AnswersMissing name level)

section Superclasses

variable {index : Index}

/-- A chain of classes begins with a new class and goes on from its superclass. -/
theorem mem_superclassChain_succ
    {limit : Nat}
    {visited : List String}
    {path name : String} :
    name ∈ index.superclassChain (limit + 1) visited path ↔
      path ∉ visited ∧ (name = path ∨ ∃ superclass, index.Inherits path superclass ∧
        name ∈ index.superclassChain limit (path :: visited) superclass) := by
  rw [superclassChain]
  split
  · next isVisited =>
      simp [isVisited]
  · next isNew =>
      rw [List.mem_cons]
      split
      · next superclass isClass isSuperclass =>
          simp [isNew, Inherits, isClass, isSuperclass]
      · next notFurther =>
          have noSuperclass : ¬∃ superclass, index.Inherits path superclass ∧
              name ∈ index.superclassChain limit (path :: visited) superclass := by
            rintro ⟨superclass, ⟨isClass, isSuperclass⟩, -⟩
            exact notFurther superclass isClass isSuperclass
          simp [isNew, noSuperclass]

theorem inherits_of_mem_superclassChain
    {limit : Nat}
    {visited : List String}
    {path name : String}
    (member : name ∈ index.superclassChain limit visited path) :
    ReflTransGen index.Inherits path name := by
  induction limit generalizing visited path with
  | zero =>
      cases member
  | succ limit inductionHypothesis =>
      obtain ⟨-, rfl | ⟨superclass, inherits, further⟩⟩ := mem_superclassChain_succ.mp member
      · exact .refl
      · exact .head inherits (inductionHypothesis further)

/-- With enough steps, a chain begins with its class unless that was visited. -/
theorem visited_or_mem_superclassChain
    {domain : Finset String}
    {limit : Nat}
    {visited : List String}
    {path : String}
    (inDomain : path ∈ domain)
    (enough : (unvisited domain visited).card ≤ limit) :
    path ∈ visited ∨ path ∈ index.superclassChain limit visited path := by
  by_cases isVisited : path ∈ visited
  · exact .inl isVisited
  · cases limit with
    | zero =>
        exact .inl (visited_of_card_unvisited inDomain enough)
    | succ limit =>
        exact .inr (mem_superclassChain_succ.mpr ⟨isVisited, .inl rfl⟩)

/-- With enough steps, the superclass of a class in a chain is in the chain or was visited. -/
theorem superclassChain_closed
    {domain : Finset String}
    (inheritsInside : ∀ path name, index.Inherits path name → name ∈ domain)
    {limit : Nat}
    {visited : List String}
    {path : String}
    (inDomain : path ∈ domain)
    (enough : (unvisited domain visited).card ≤ limit)
    {name next : String}
    (member : name ∈ index.superclassChain limit visited path)
    (inherits : index.Inherits name next) :
    next ∈ visited ∨ next ∈ index.superclassChain limit visited path := by
  induction limit generalizing visited path with
  | zero =>
      cases member
  | succ limit inductionHypothesis =>
      obtain ⟨isNew, further⟩ := mem_superclassChain_succ.mp member
      have fewer := card_unvisited_cons_lt inDomain isNew
      have enoughBehind : (unvisited domain (path :: visited)).card ≤ limit := by
        omega
      -- Behind the first class, the class itself counts as visited as well.
      have inChain : ∀ superclass, index.Inherits path superclass →
          next ∈ path :: visited ∨
            next ∈ index.superclassChain limit (path :: visited) superclass →
          next ∈ visited ∨ next ∈ index.superclassChain (limit + 1) visited path := by
        intro superclass isNext found
        rcases found with isVisited | isBehind
        · rcases List.mem_cons.mp isVisited with rfl | isVisited
          · exact .inr (mem_superclassChain_succ.mpr ⟨isNew, .inl rfl⟩)
          · exact .inl isVisited
        · exact .inr (mem_superclassChain_succ.mpr ⟨isNew, .inr ⟨superclass, isNext, isBehind⟩⟩)
      rcases further with rfl | ⟨superclass, isNext, isBehind⟩
      · refine inChain next inherits ?_
        exact visited_or_mem_superclassChain (inheritsInside _ next inherits) enoughBehind
      · refine inChain superclass isNext ?_
        exact inductionHypothesis (inheritsInside path superclass isNext) enoughBehind isBehind

/-- The chain of a class consists of all its superclasses. -/
theorem IsListed.mem_superclassChain
    (listed : index.IsListed)
    {path name : String} :
    name ∈ index.superclassChain index.walkLimit [] path ↔
      ReflTransGen index.Inherits path name := by
  have inheritsInside : ∀ other next, index.Inherits other next → next ∈ index.namesFrom path := by
    intro other next inherits
    exact listed.mem_namesFrom_of_passesOn (.inr (.inr inherits.2))
  have enough : (unvisited (index.namesFrom path) []).card ≤ index.walkLimit :=
    (Finset.card_filter_le _ _).trans card_namesFrom_le
  constructor
  · exact inherits_of_mem_superclassChain
  · intro inherits
    induction inherits with
    | refl =>
        have found : path ∈ [] ∨ path ∈ index.superclassChain index.walkLimit [] path :=
          visited_or_mem_superclassChain mem_namesFrom_self enough
        exact found.resolve_left List.not_mem_nil
    | tail _ isNext inductionHypothesis =>
        have found :=
          superclassChain_closed inheritsInside mem_namesFrom_self enough inductionHypothesis isNext
        exact found.resolve_left List.not_mem_nil

end Superclasses

section Sources

variable {index : Index} {path name : String} {level : Scope}

/-- A class and what extends it are looked up on the class's level and on that of instances. -/
theorem IsListed.mem_classLevelSources
    (listed : index.IsListed)
    {owner : String} :
    (name, level) ∈ index.classLevelSources owner ↔
      (name = owner ∧ level = .classLevel) ∨
        level = .instanceLevel ∧ ∃ extension ∈ index.mixins owner .extension,
          ReflTransGen index.Mixes extension name := by
  simp only [classLevelSources, List.mem_cons, Prod.mk.injEq, List.mem_map, List.mem_flatMap,
    List.mem_reverse, listed.mem_moduleAncestors]
  constructor
  · rintro (isOwner | ⟨other, isExtension, rfl, rfl⟩)
    · exact .inl isOwner
    · exact .inr ⟨rfl, isExtension⟩
  · rintro (isOwner | ⟨rfl, isExtension⟩)
    · exact .inl isOwner
    · exact .inr ⟨name, isExtension, rfl, rfl⟩

/-- The look-up of class methods goes through the class side, and through nothing else. -/
theorem IsListed.mem_methodSources_classLevel
    (listed : index.IsListed) :
    (name, level) ∈ index.methodSources path .classLevel ↔ index.OnClassSide path name level := by
  simp only [methodSources, List.mem_append, List.mem_flatMap, List.mem_map, Prod.mk.injEq,
    listed.mem_superclassChain]
  constructor
  · rintro (⟨owner, inherits, isSource⟩ | ⟨other, isAncestor, rfl, rfl⟩)
    · rcases listed.mem_classLevelSources.mp isSource with
        ⟨rfl, rfl⟩ | ⟨rfl, extension, isExtension, mixes⟩
      · exact .inherited inherits
      · exact .extended inherits isExtension mixes
    · exact .metaclass isAncestor
  · intro onClassSide
    cases onClassSide with
    | inherited inherits =>
        exact .inl ⟨name, inherits, listed.mem_classLevelSources.mpr (.inl ⟨rfl, rfl⟩)⟩
    | @extended owner extension _ inherits isExtension mixes =>
        refine .inl ⟨owner, inherits, listed.mem_classLevelSources.mpr (.inr ?_)⟩
        exact ⟨rfl, extension, isExtension, mixes⟩
    | metaclass isAncestor =>
        exact .inr ⟨name, isAncestor, rfl, rfl⟩

theorem method?_eq_none_iff
    {method : String}
    {scope : Scope} :
    index.method? path method scope = none ↔
      ∀ source ∈ index.methodSources path scope, ∀ pin ∈ index.ownMethods source.1 source.2,
        pin.name ≠ method := by
  simp [method?, List.findSome?_eq_none_iff]

/-- No ancestor of a closed path has an unresolved reference or answers to missing methods. -/
theorem complete_of_closed
    (closed : index.isOpen path = false)
    (isAncestor : name ∈ index.ancestors path) :
    index.hasUnresolvedReference name = false ∧ ¬index.AnswersMissing name .instanceLevel := by
  simp only [isOpen, Bool.or_eq_false_iff, List.any_eq_false] at closed
  obtain ⟨⟨-, resolved⟩, noneMissing⟩ := closed
  refine ⟨eq_false_of_ne_true (resolved name isAncestor), ?_⟩
  rintro ⟨pin, own, named⟩
  rw [Option.isSome_eq_false_iff, Option.isNone_iff_eq_none, method?_eq_none_iff] at noneMissing
  have isSource : (name, .instanceLevel) ∈ index.methodSources path .instanceLevel := by
    rw [methodSources, List.mem_map]
    exact ⟨name, List.mem_append_left _ isAncestor, rfl⟩
  exact noneMissing _ isSource pin own named

end Sources

/--
For a closed namespace, no part of the class side has an unresolved reference and no class method
answers to missing methods, exactly if the class side has no gap beyond the namespace's ancestors.
-/
theorem classSide_of_closed
    {pins : List Pin}
    {path : String}
    (closed : (ofPins pins).isOpen path = false) :
    ((∀ source ∈ (ofPins pins).methodSources path .classLevel,
        (ofPins pins).hasUnresolvedReference source.1 = false) ∧
      (ofPins pins).method? path "method_missing" .classLevel = none) ↔
      ¬∃ name level, (ofPins pins).OnClassSide path name level ∧
        (ofPins pins).IsGap path name level := by
  have listed := isListed_ofPins pins
  rw [method?_eq_none_iff]
  constructor
  · rintro ⟨resolved, noneMissing⟩ ⟨name, level, onClassSide, isGap⟩
    have isSource := listed.mem_methodSources_classLevel.mpr onClassSide
    rcases isGap with ⟨-, unresolved⟩ | ⟨-, pin, own, named⟩
    · have isResolved := resolved _ isSource
      rw [unresolved] at isResolved
      cases isResolved
    · exact noneMissing _ isSource pin own named
  · intro noGap
    refine ⟨?_, ?_⟩
    · rintro ⟨name, level⟩ isSource
      by_contra unresolved
      have isUnresolved := eq_true_of_ne_false unresolved
      have onClassSide := listed.mem_methodSources_classLevel.mp isSource
      refine noGap ⟨name, level, onClassSide, .inl ⟨?_, isUnresolved⟩⟩
      intro isAncestor
      exact unresolved (complete_of_closed closed isAncestor).1
    · rintro ⟨name, level⟩ isSource pin own named
      have answers : (ofPins pins).AnswersMissing name level := ⟨pin, own, named⟩
      have onClassSide := listed.mem_methodSources_classLevel.mp isSource
      refine noGap ⟨name, level, onClassSide, .inr ⟨?_, answers⟩⟩
      cases level with
      | classLevel =>
          exact .inr rfl
      | instanceLevel =>
          refine .inl ?_
          intro isAncestor
          exact (complete_of_closed closed isAncestor).2 answers

end Index

namespace RemoteExtension

open Stub.Layout

/-- A call that extends a class by a module. -/
def extensionNode (place : Position) (moduleName : String) : SyntaxNode :=
  let name := leaf .identifier (some .method) place "extend"
  let argument := leaf .constant none (behind name.span.stop " ") moduleName
  branch .call none place argument.span.stop
    [name, branch .argumentList (some .arguments) argument.span.start argument.span.stop [argument]]

/--
A module `Remote` that includes an unknown module and answers to missing methods, a class `Foo` that
is extended by it, and a class `Bar` that is extended by `Comparable`.
-/
def source : Source where
  filename := "foo.rb"
  root :=
    branch .program none ⟨0, 0⟩ ⟨10, 0⟩
      [branch .moduleDefinition none ⟨0, 0⟩ ⟨3, 3⟩
        [leaf .constant (some .name) ⟨0, 7⟩ "Remote",
          inclusionNode ⟨1, 2⟩ "Unknown",
          methodNode ⟨2, 2⟩ false "method_missing" [.required "name"] []],
        branch .classDefinition none ⟨4, 0⟩ ⟨6, 3⟩
          [leaf .constant (some .name) ⟨4, 6⟩ "Foo", extensionNode ⟨5, 2⟩ "Remote"],
        branch .classDefinition none ⟨7, 0⟩ ⟨9, 3⟩
          [leaf .constant (some .name) ⟨7, 6⟩ "Bar", extensionNode ⟨8, 2⟩ "Comparable"]]
  isParsed := true

/-- The declarations of the source. -/
def pins : List Pin :=
  (Outline.ofSource 1 source).pins

/-- The class side of `Bar` is complete, although `Bar` is extended by a module. -/
theorem noGap_bar :
    (Index.ofPins pins).isOpen "Bar" = false ∧
      ¬∃ name level, (Index.ofPins pins).OnClassSide "Bar" name level ∧
        (Index.ofPins pins).IsGap "Bar" name level := by
  have complete :
      (Index.ofPins pins).isOpen "Bar" = false ∧
      (∀ source ∈ (Index.ofPins pins).methodSources "Bar" .classLevel,
        (Index.ofPins pins).hasUnresolvedReference source.1 = false) ∧
      ((Index.ofPins pins).method? "Bar" "method_missing" .classLevel).isNone = true := by
    rw [Index.ofPins_eq_ofList]
    decide +kernel
  obtain ⟨closed, resolved, noneMissing⟩ := complete
  refine ⟨closed, (Index.classSide_of_closed closed).mp ⟨resolved, ?_⟩⟩
  exact Option.isNone_iff_eq_none.mp noneMissing

/-- `Foo` is closed, but its class side has an open module, which answers to missing methods. -/
theorem classSide_of_closed_not_complete :
    ¬∀ (pins : List Pin) (path : String), (Index.ofPins pins).isOpen path = false →
      (∀ source ∈ (Index.ofPins pins).methodSources path .classLevel,
        (Index.ofPins pins).hasUnresolvedReference source.1 = false) ∧
      (Index.ofPins pins).method? path "method_missing" .classLevel = none := by
  intro allComplete
  have incomplete :
      (Index.ofPins pins).isOpen "Foo" = false ∧
      ("Remote", .instanceLevel) ∈ (Index.ofPins pins).methodSources "Foo" .classLevel ∧
      (Index.ofPins pins).hasUnresolvedReference "Remote" = true := by
    rw [Index.ofPins_eq_ofList]
    decide +kernel
  obtain ⟨closed, isSource, unresolved⟩ := incomplete
  have isResolved := (allComplete pins "Foo" closed).1 _ isSource
  rw [unresolved] at isResolved
  cases isResolved

end RemoteExtension

end TagCheck
