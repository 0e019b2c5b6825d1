import TagCheck.Proofs.Index.Compatibility
import TagCheck.Proofs.Index.Reachability

namespace TagCheck

open Relation (ReflTransGen)

/-!
# Widening a documented type

A documented name takes the names below it: those with the documented class among their ancestors.
The ancestors of ancestors are ancestors, and so whatever fits a name fits its ancestors as well.

Some tags are outside this order.  The roots of all classes accept every type and Boolean accepts the
names of truth values, whatever the classes of these are, and nil and Boolean as actual alternatives
are compared by their tags.
-/

namespace Index

/-- A tag names a namespace and refers to a path in a context. -/
structure Denotes (index : Index) (context name path : String) : Prop where
  isName : (DocType.named name).isPseudo = false ∨ name = "Boolean"
  refers : index.qualify? name context = some path

/-- The classes of the truth values. -/
def truthClasses : List String :=
  ["TrueClass", "FalseClass"]

/-- The classes at the root of all others, which accept every type. -/
def roots : List String :=
  ["Object", "BasicObject"]

section Transitivity

variable {index : Index} {first second third : String}

/-- If no mixed-in name has a superclass, the ancestors of ancestors are ancestors. -/
theorem IsListed.ancestors_trans
    (listed : index.IsListed)
    (modulesOnly : index.MixesModulesOnly)
    (isAncestor : second ∈ index.ancestors first)
    (isFurther : third ∈ index.ancestors second) :
    third ∈ index.ancestors first := by
  have reached : ∀ path name,
      name ∈ index.ancestors path ↔ ReflTransGen index.PassesOn path name := by
    intro path name
    obtain ⟨met, meets, closed⟩ := (listed.listsAncestors path).exists_meets modulesOnly
    exact closed.mem_listed_iff meets
  rw [reached] at isAncestor isFurther ⊢
  exact isAncestor.trans isFurther

end Transitivity

section Tags

variable {index : Index} {context name path : String} {fits : DocUnion → DocUnion → Bool}
  {actual : DocType}

/-- What a tag other than Boolean asks of an actual alternative. -/
structure Takes (index : Index) (context name path : String) (actual : DocType) : Prop where
  nil : actual.isNil = true → name = "NilClass"
  boolean : actual.isBoolean = true → name ∈ truthClasses
  known : ∀ actualPath, actual.isDuck = false → actual.isGeneric = false → actual.isNil = false →
    actual.isBoolean = false → index.qualifyClass? actual.name context = some actualPath →
    path ∈ index.ancestors actualPath

theorem qualifyClass?_of_ne
    (notNil : name ≠ "nil")
    (notTrue : name ≠ "true")
    (notFalse : name ≠ "false") :
    index.qualifyClass? name context = index.qualify? name context := by
  unfold qualifyClass?
  split
  · exact absurd rfl notNil
  · exact absurd rfl notTrue
  · exact absurd rfl notFalse
  · rfl

theorem tags_of_isNil
    (isNil : actual.isNil = true) :
    actual.isDuck = false ∧ actual.isGeneric = false ∧ actual.isBoolean = false := by
  obtain ⟨name, ordered, keys, values, nullable⟩ := actual
  simp only [DocType.isNil, Bool.or_eq_true, decide_eq_true_eq] at isNil
  rcases isNil with rfl | rfl
  · simp [DocType.isDuck, DocType.isGeneric, DocType.isBoolean]
  · simp [DocType.isDuck, DocType.isGeneric, DocType.isBoolean]

theorem tags_of_isBoolean
    (isBoolean : actual.isBoolean = true) :
    actual.isDuck = false ∧ actual.isGeneric = false := by
  obtain ⟨name, ordered, keys, values, nullable⟩ := actual
  obtain rfl : name = "Boolean" := of_decide_eq_true isBoolean
  simp [DocType.isDuck, DocType.isGeneric]

/-- Duck types and placeholders are taken for any name. -/
theorem takes_of_placeholder
    (isPlaceholder : actual.isDuck = true ∨ actual.isGeneric = true) :
    index.Takes context name path actual where
  nil isNil := by
    obtain ⟨notDuck, notGeneric, -⟩ := tags_of_isNil isNil
    simp [notDuck, notGeneric] at isPlaceholder
  boolean isBoolean := by
    obtain ⟨notDuck, notGeneric⟩ := tags_of_isBoolean isBoolean
    simp [notDuck, notGeneric] at isPlaceholder
  known actualPath notDuck notGeneric := by
    simp [notDuck, notGeneric] at isPlaceholder

theorem takes_iff_of_isNil
    (isNil : actual.isNil = true) :
    index.Takes context name path actual ↔ name = "NilClass" := by
  have notBoolean := (tags_of_isNil isNil).2.2
  constructor
  · exact fun takes => takes.nil isNil
  · intro isNilClass
    exact ⟨fun _ => isNilClass, by simp [notBoolean], by simp [isNil]⟩

theorem takes_iff_of_isBoolean
    (isBoolean : actual.isBoolean = true) :
    index.Takes context name path actual ↔ name ∈ truthClasses := by
  constructor
  · exact fun takes => takes.boolean isBoolean
  · intro isTruth
    refine ⟨fun isNil => ?_, fun _ => isTruth, by simp [isBoolean]⟩
    rw [(tags_of_isNil isNil).2.2] at isBoolean
    cases isBoolean

/-- Other alternatives are taken for a name that is an ancestor of what they refer to. -/
theorem takes_iff_of_isKnown
    (notOpen : ¬(actual.isDuck || actual.isGeneric) = true)
    (notNil : ¬actual.isNil = true)
    (notBoolean : ¬actual.isBoolean = true) :
    index.Takes context name path actual ↔
      ∀ actualPath, index.qualifyClass? actual.name context = some actualPath →
        path ∈ index.ancestors actualPath := by
  simp only [Bool.or_eq_true, not_or, Bool.not_eq_true] at notOpen notNil notBoolean
  constructor
  · exact fun takes actualPath =>
      takes.known actualPath notOpen.1 notOpen.2 notNil notBoolean
  · intro isBelow
    refine ⟨?_, ?_, fun actualPath _ _ _ _ => isBelow actualPath⟩
    · simp [notNil]
    · simp [notBoolean]

/-- A tag that is not `nil` is nil only as the class of nil. -/
theorem isNil_named
    (notPseudo : (DocType.named name).isPseudo = false) :
    (DocType.named name).isNil = decide (name = "NilClass") := by
  have notNil : name ≠ "nil" := by
    rintro rfl
    simp [DocType.isPseudo, DocType.named] at notPseudo
  have either : (DocType.named name).isNil =
      (decide (name = "nil") || decide (name = "NilClass")) := rfl
  rw [either, decide_eq_false notNil, Bool.false_or]

/-- The tags of an actual alternative decide about a name, and leave the others to its class. -/
theorem tagsFit?_named
    (notPseudo : (DocType.named name).isPseudo = false)
    (acceptsNil : Bool) :
    index.tagsFit? acceptsNil (.named name) actual =
      if actual.isDuck || actual.isGeneric then some true
      else if actual.isNil then some (decide (name = "NilClass") || acceptsNil)
      else if actual.isBoolean then some (truthClasses.contains name)
      else none := by
  have isNil := isNil_named notPseudo
  simp only [DocType.isPseudo, Bool.or_eq_false_iff] at notPseudo
  obtain ⟨⟨⟨⟨⟨notDuck, -⟩, notSelf⟩, notBoolean⟩, notGeneric⟩, -⟩ := notPseudo
  have noMember : (DocType.named name).duckMember? = none := by
    rwa [DocType.isDuck_eq_isSome_duckMember?, Option.isSome_eq_false_iff,
      Option.isNone_iff_eq_none] at notDuck
  unfold tagsFit?
  simp only [noMember, notSelf, notBoolean, notGeneric, isNil, Bool.or_false]
  rfl

/-- A name is compared with the ancestors of what an actual name refers to. -/
theorem classesFit_named_iff
    (notPseudo : (DocType.named name).isPseudo = false)
    (refers : index.qualify? name context = some path) :
    index.classesFit context fits (.named name) actual = true ↔
      ∀ actualPath, index.qualifyClass? actual.name context = some actualPath →
        path ∈ index.ancestors actualPath := by
  have isClass : index.qualifyClass? (DocType.named name).name context = some path := by
    rw [← refers]
    apply qualifyClass?_of_ne
    all_goals
      rintro rfl
      simp [DocType.isPseudo, DocType.named] at notPseudo
  unfold classesFit
  rw [isClass]
  cases found : index.qualifyClass? actual.name context with
  | none =>
      simp
  | some actualPath =>
      have itself := index.self_mem_ancestors actualPath
      have parameters : parametersFit fits (.named name) actual = true := rfl
      by_cases same : path = actualPath
      · simp [same, itself, parameters]
      · simp [same, parameters]

/-- An alternative fits a name exactly if the name takes it. -/
theorem alternativeFits_named_iff
    (notPseudo : (DocType.named name).isPseudo = false)
    (refers : index.qualify? name context = some path) :
    index.alternativeFits context (DocUnion.named name).isNullable fits (.named name) actual =
        true ↔
      index.Takes context name path actual := by
  have acceptsNil : (DocUnion.named name).isNullable = decide (name = "NilClass") := by
    have either : (DocUnion.named name).isNullable = ((DocType.named name).isNil || false) := rfl
    rw [either, Bool.or_false, isNil_named notPseudo]
  rw [alternativeFits_eq, tagsFit?_named notPseudo, acceptsNil, Bool.or_self]
  split_ifs with isOpen isNil isBoolean
  · exact iff_of_true rfl (takes_of_placeholder (Bool.or_eq_true_iff.mp isOpen))
  · rw [takes_iff_of_isNil isNil, Option.getD_some, decide_eq_true_eq]
  · rw [takes_iff_of_isBoolean isBoolean, Option.getD_some, List.contains_iff_mem]
  · rw [takes_iff_of_isKnown isOpen isNil isBoolean, Option.getD_none,
      classesFit_named_iff notPseudo refers]

theorem Denotes.notPseudo
    (denotes : index.Denotes context name path)
    (notBoolean : name ≠ "Boolean") :
    (DocType.named name).isPseudo = false :=
  denotes.isName.resolve_right notBoolean

/-- A name accepts a type if it takes every alternative, or if it is a root of all classes. -/
theorem isCompatible_named_iff
    (notPseudo : (DocType.named name).isPseudo = false)
    (refers : index.qualify? name context = some path)
    {actual : DocUnion} :
    index.isCompatible (.named name) actual context = true ↔
      name ∈ roots ∨ ∀ a ∈ actual, index.Takes context name path a := by
  have isRoot : acceptsAll (.named name) = true ↔ name ∈ roots := by
    have notUndefined : name ≠ "undefined" := by
      rintro rfl
      simp [DocType.isPseudo, DocType.named] at notPseudo
    simp [acceptsAll, DocUnion.named, DocType.named, notUndefined, roots]
  have defined : DocUnion.named name ≠ [] := List.cons_ne_nil _ _
  have single : ∀ e, e ∈ DocUnion.named name ↔ e = .named name := fun e => List.mem_singleton
  simp only [isCompatible_iff, isRoot, defined, false_or, single, exists_eq_left,
    alternativeFits_named_iff notPseudo refers]

end Tags

/-- The names that accept by their tags, and not by the ancestors of what they are compared with. -/
def tagNames : List String :=
  "Boolean" :: roots

/--
What a wider name asks of an alternative that fits a narrower name.  A narrower name that accepts by
its tag says nothing about the class of the alternative, and so the wider name has to take it itself.
-/
structure IsWidened (index : Index) (context narrow wide widePath : String) (actual : DocType) :
    Prop where
  nil : actual.isNil = true → wide = "NilClass"
  boolean : actual.isBoolean = true → wide ∈ truthClasses
  tagged : narrow ∈ tagNames → index.Takes context wide widePath actual

section Widening

variable {index : Index} {context narrow narrowPath wide widePath : String} {actual : DocType}

/-- A wider name takes what a narrower one takes, apart from nil and Boolean. -/
theorem Takes.wider
    (listed : index.IsListed)
    (modulesOnly : index.MixesModulesOnly)
    (isAncestor : widePath ∈ index.ancestors narrowPath)
    (takes : index.Takes context narrow narrowPath actual)
    (nil : actual.isNil = true → wide = "NilClass")
    (boolean : actual.isBoolean = true → wide ∈ truthClasses) :
    index.Takes context wide widePath actual where
  nil := nil
  boolean := boolean
  known actualPath notDuck notGeneric notNil notBoolean found :=
    listed.ancestors_trans modulesOnly
      (takes.known actualPath notDuck notGeneric notNil notBoolean found) isAncestor

theorem takes_iff_isWidened
    (listed : index.IsListed)
    (modulesOnly : index.MixesModulesOnly)
    (isAncestor : widePath ∈ index.ancestors narrowPath)
    (takes : narrow ∉ tagNames → index.Takes context narrow narrowPath actual) :
    index.Takes context wide widePath actual ↔
      index.IsWidened context narrow wide widePath actual := by
  constructor
  · exact fun takesWide => ⟨takesWide.nil, takesWide.boolean, fun _ => takesWide⟩
  · intro widened
    by_cases isTag : narrow ∈ tagNames
    · exact widened.tagged isTag
    · exact (takes isTag).wider listed modulesOnly isAncestor widened.nil widened.boolean

end Widening

/--
What is accepted where a name is documented is accepted where an ancestor of it is, exactly if the
ancestor is a root of all classes or accepts nil and Boolean by their tags.  Where the narrower name
accepts by its tag as well, the ancestor is compared with the classes of the alternatives anew.
-/
theorem isCompatible_ancestor_iff
    (pins : List Pin)
    (modulesOnly : (ofPins pins).MixesModulesOnly)
    {context narrow narrowPath wide widePath : String}
    (narrowName : (ofPins pins).Denotes context narrow narrowPath)
    (wideName : (ofPins pins).Denotes context wide widePath)
    (isAncestor : widePath ∈ (ofPins pins).ancestors narrowPath)
    (toBoolean : wide = "Boolean" → narrow = "Boolean")
    {actual : DocUnion}
    (fit : (ofPins pins).isCompatible (.named narrow) actual context = true) :
    (ofPins pins).isCompatible (.named wide) actual context = true ↔
      wide = narrow ∨ wide ∈ roots ∨
        ∀ a ∈ actual, (ofPins pins).IsWidened context narrow wide widePath a := by
  by_cases isSame : wide = narrow
  · rw [isSame]
    exact iff_of_true fit (.inl rfl)
  have wideClass : wide ≠ "Boolean" := fun isBoolean =>
    isSame (isBoolean.trans (toBoolean isBoolean).symm)
  have takesNarrow : narrow ∉ tagNames → ∀ a ∈ actual,
      (ofPins pins).Takes context narrow narrowPath a := by
    intro notTag
    obtain ⟨notBoolean, notRoot⟩ := List.ne_and_not_mem_of_not_mem_cons notTag
    rw [isCompatible_named_iff (narrowName.notPseudo notBoolean) narrowName.refers] at fit
    exact fit.resolve_left notRoot
  rw [isCompatible_named_iff (wideName.notPseudo wideClass) wideName.refers]
  simp only [isSame, false_or]
  refine or_congr_right (forall₂_congr fun a member => ?_)
  exact takes_iff_isWidened (isListed_ofPins pins) modulesOnly isAncestor fun notTag =>
    takesNarrow notTag a member

/-- What fits a declared name at the top level fits one of its declared ancestors as well. -/
def FitsAncestor (index : Index) (narrow wide : String) (actual : DocUnion) : Prop :=
  index.isNamespace narrow = true → index.isNamespace wide = true →
    ConstantPath.splitFirst? narrow = none → ConstantPath.splitFirst? wide = none →
    wide ∈ index.ancestors narrow →
    index.isCompatible (.named narrow) actual "" = true →
    index.isCompatible (.named wide) actual "" = true

instance (index : Index) (narrow wide : String) (actual : DocUnion) :
    Decidable (index.FitsAncestor narrow wide actual) :=
  inferInstanceAs (Decidable (_ → _))

namespace CoreClasses

theorem mixesModulesOnly :
    (ofPins []).MixesModulesOnly := by
  refine (isListed_ofPins []).mixesModulesOnly ?_
  rw [ofPins_eq_ofList]
  decide +kernel

/-- What fits `Float` fits `Comparable`. -/
theorem isCompatible_comparable :
    (ofPins []).MixesModulesOnly ∧ "Comparable" ∈ (ofPins []).ancestors "Float" ∧
      (ofPins []).isCompatible (.named "Float") [.named "Float", .named "#round"] "" = true ∧
      (ofPins []).isCompatible (.named "Comparable") [.named "Float", .named "#round"] "" =
        true := by
  have modulesOnly := mixesModulesOnly
  have computed :
      (ofPins []).qualify? "Float" "" = some "Float" ∧
        (ofPins []).qualify? "Comparable" "" = some "Comparable" ∧
        "Comparable" ∈ (ofPins []).ancestors "Float" ∧
        (ofPins []).isCompatible (.named "Float") [.named "Float", .named "#round"] "" = true := by
    rw [ofPins_eq_ofList]
    decide +kernel
  obtain ⟨isFloat, isComparable, isAncestor, fit⟩ := computed
  refine ⟨modulesOnly, isAncestor, fit, ?_⟩
  have float : (ofPins []).Denotes "" "Float" "Float" := ⟨.inl (by decide), isFloat⟩
  have comparable : (ofPins []).Denotes "" "Comparable" "Comparable" :=
    ⟨.inl (by decide), isComparable⟩
  refine (isCompatible_ancestor_iff [] modulesOnly float comparable isAncestor ?_ fit).mpr ?_
  · decide
  · refine .inr (.inr fun a member => ⟨?_, ?_, ?_⟩)
    · revert a
      decide
    · revert a
      decide
    · intro isTag
      exact absurd isTag (by decide)

end CoreClasses

end Index

namespace WidenedClasses

open Stub.Layout

/-- A class `Worker` that mixes in a class `Job`, which has a superclass `Task`. -/
def mixingSource : Source where
  filename := "worker.rb"
  root :=
    program 0
      [.namespaceStub .classNamespace "Task" none [],
        .namespaceStub .classNamespace "Job" (some "Task") [],
        .namespaceStub .classNamespace "Worker" none [.inclusion "Job"]]
  isParsed := true

/-- A class that bears the name of the tag `Boolean`, between a superclass and a subclass. -/
def booleanSource : Source where
  filename := "flag.rb"
  root :=
    program 0
      [.namespaceStub .classNamespace "Answer" none [],
        .namespaceStub .classNamespace "Boolean" (some "Answer") [],
        .namespaceStub .classNamespace "Flag" (some "Boolean") []]
  isParsed := true

/-- The index of a source. -/
def indexOf (source : Source) : Index :=
  .ofPins (Outline.ofSource 1 source).pins

/--
Modules fit `Object`, nil fits `NilClass`, Boolean fits `TrueClass`, and none of them fits `Kernel`,
which is an ancestor of all three.  The superclass of a class that is mixed in is no ancestor, and the
tag `Boolean` takes no part in the order of the classes around its name.
-/
theorem not_fitsAncestor :
    ¬(Index.ofPins []).FitsAncestor "Object" "Kernel" (.named "Comparable") ∧
      ¬(Index.ofPins []).FitsAncestor "NilClass" "Kernel" (.named "nil") ∧
      ¬(Index.ofPins []).FitsAncestor "TrueClass" "Kernel" (.named "Boolean") ∧
      ¬(indexOf mixingSource).FitsAncestor "Job" "Task" (.named "Worker") ∧
      ¬(indexOf booleanSource).FitsAncestor "Boolean" "Answer" (.named "TrueClass") ∧
      ¬(indexOf booleanSource).FitsAncestor "Flag" "Boolean" (.named "Flag") := by
  simp only [indexOf, Index.ofPins_eq_ofList]
  decide +kernel

end WidenedClasses

end TagCheck
