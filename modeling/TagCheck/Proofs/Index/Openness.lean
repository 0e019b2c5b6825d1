import TagCheck.Proofs.Index.Ancestry
import TagCheck.Proofs.Index.Lookup
import TagCheck.Snapshot

namespace TagCheck

namespace Index

/-!
# What the ancestors of a closed namespace are

Every ancestor of a closed namespace is declared.  It need not be a namespace: a superclass or a
mixin may also be a constant, about whose methods nothing is known, and such a reference does not
make the namespace open.
-/

/-- A name that a written superclass or mixin of a namespace refers to. -/
def RefersTo (index : Index) (path name : String) : Prop :=
  index.explicitSuperclass? path = some name ∨ name ∈ index.mixins path .prepending ∨
    name ∈ index.mixins path .inclusion

/-- A constant is assigned at the path, and no namespace is declared there. -/
def IsMereConstant (index : Index) (path : String) : Prop :=
  index.isConstant path = true ∧ index.isNamespace path = false

section Declared

variable {index : Index}

/-- Whatever a name refers to is declared. -/
theorem isDeclared_of_qualifyLexical?
    {name path : String}
    {gates : List String}
    (qualified : index.qualifyLexical? name gates = some path) :
    index.isDeclared path = true := by
  unfold qualifyLexical? at qualified
  split at qualified
  · split at qualified
    · next declared =>
        cases qualified
        exact declared
    · cases qualified
  · exact List.find?_some qualified

theorem isDeclared_of_explicitSuperclass?
    {path superclass : String}
    (written : index.explicitSuperclass? path = some superclass) :
    index.isDeclared superclass = true := by
  simp only [explicitSuperclass?, Option.bind_eq_bind, Option.bind_eq_some_iff] at written
  obtain ⟨⟨name, gates⟩, -, other, qualified, notItself⟩ := written
  split at notItself
  · cases notItself
  · cases notItself
    exact isDeclared_of_qualifyLexical? qualified

theorem isDeclared_of_mem_mixins
    {path name : String}
    {kind : ReferenceKind}
    (member : name ∈ index.mixins path kind) :
    index.isDeclared name = true := by
  unfold mixins at member
  split at member
  · obtain ⟨pin, -, qualified⟩ := List.mem_filterMap.mp member
    exact isDeclared_of_qualifyLexical? qualified
  · cases member

theorem RefersTo.isDeclared
    {path name : String}
    (refers : index.RefersTo path name) :
    index.isDeclared name = true := by
  rcases refers with isSuperclass | isPrepended | isIncluded
  · exact isDeclared_of_explicitSuperclass? isSuperclass
  · exact isDeclared_of_mem_mixins isPrepended
  · exact isDeclared_of_mem_mixins isIncluded

/-- A superclass is written, or it is one of the classes at the root of all others. -/
theorem explicit_or_root_of_superclassOf?
    {path superclass : String}
    (isSuperclass : index.superclassOf? path = some superclass) :
    index.explicitSuperclass? path = some superclass ∨
      superclass = "Object" ∨ superclass = "BasicObject" := by
  unfold superclassOf? at isSuperclass
  split at isSuperclass
  · cases isSuperclass
    exact .inr (.inl rfl)
  · split at isSuperclass
    · next other written =>
        cases isSuperclass
        exact .inl written
    · split at isSuperclass
      · split at isSuperclass
        · cases isSuperclass
        · cases isSuperclass
          exact .inr (.inr rfl)
        · cases isSuperclass
          exact .inr (.inl rfl)
      · cases isSuperclass

/-- The look-up goes on to what a namespace refers to, or to a root class. -/
theorem PassesOn.refersTo_or_root
    {path name : String}
    (passesOn : index.PassesOn path name) :
    index.RefersTo path name ∨ name = "Object" ∨ name = "BasicObject" := by
  rcases passesOn with isPrepended | isIncluded | isSuperclass
  · exact .inl (.inr (.inl isPrepended))
  · exact .inl (.inr (.inr isIncluded))
  · rcases explicit_or_root_of_superclassOf? isSuperclass with written | isRoot
    · exact .inl (.inl written)
    · exact .inr isRoot

/-- A closed path is the top level or a namespace. -/
theorem isNamespace_of_closed
    {path : String}
    (closed : index.isOpen path = false)
    (notRoot : path ≠ "") :
    index.isNamespace path = true := by
  simp only [isOpen, Bool.or_eq_false_iff] at closed
  simpa [notRoot] using closed.1.1

/-- A namespace pin makes its path a namespace. -/
theorem IsListed.isNamespace
    (listed : index.IsListed)
    {pin : Pin}
    (member : pin ∈ index.pins)
    (declares : pin.isNamespace = true) :
    index.isNamespace pin.path = true := by
  have atPath : pin ∈ index.pathPins pin.path :=
    listed.mem_pathPins.mpr ⟨member, rfl⟩
  have isKind : (declaredKind? pin).isSome = true := by
    cases kind : pin.kind <;> simp_all [PinOf.isNamespace, declaredKind?]
  rw [Index.isNamespace, namespaceKind?, List.findSome?_isSome_iff]
  exact ⟨pin, atPath, isKind⟩

end Declared

/-- The namespaces of the core library are namespaces of every program. -/
theorem isNamespace_of_coreLibrary
    (pins : List Pin)
    {name : String}
    (declared : (CoreLibrary.pins.any fun pin => pin.isNamespace && pin.path == name) = true) :
    (ofPins pins).isNamespace name = true := by
  obtain ⟨pin, inCore, declares⟩ := List.any_eq_true.mp declared
  rw [Bool.and_eq_true, beq_iff_eq] at declares
  obtain ⟨isNamespace, rfl⟩ := declares
  refine (isListed_ofPins pins).isNamespace ?_ isNamespace
  rw [pins_ofPins]
  exact List.mem_append_left _ inCore

/-- The core library declares the two classes at the root of all others. -/
theorem coreLibrary_declares_roots :
    ["Object", "BasicObject"].all (fun name =>
      CoreLibrary.pins.any fun pin => pin.isNamespace && pin.path == name) = true := by
  decide +kernel

/-- The classes at the root of all others are namespaces of every program. -/
theorem isNamespace_root
    (pins : List Pin)
    {name : String}
    (isRoot : name = "Object" ∨ name = "BasicObject") :
    (ofPins pins).isNamespace name = true := by
  have member : name ∈ ["Object", "BasicObject"] := by
    simpa using isRoot
  exact isNamespace_of_coreLibrary pins (List.all_eq_true.mp coreLibrary_declares_roots name member)

section Closed

variable {pins : List Pin} {path : String}

/-- Every ancestor of a closed namespace is the top level, a namespace, or referred to. -/
theorem isNamespace_or_refersTo_of_closed
    (closed : (ofPins pins).isOpen path = false)
    {name : String}
    (member : name ∈ (ofPins pins).ancestors path)
    (notRoot : name ≠ "") :
    (ofPins pins).isNamespace name = true ∨
      ∃ ancestor ∈ (ofPins pins).ancestors path, (ofPins pins).RefersTo ancestor name := by
  rcases eq_or_passesOn_of_mem_ancestors member with rfl | ⟨ancestor, isAncestor, passesOn⟩
  · exact .inl (isNamespace_of_closed closed notRoot)
  · rcases passesOn.refersTo_or_root with refers | isRoot
    · exact .inr ⟨ancestor, isAncestor, refers⟩
    · exact .inl (isNamespace_root pins isRoot)

/--
Every ancestor of a closed namespace is declared, and the ancestors are all namespaces exactly when
none of them refers to one that is a mere constant.
-/
theorem ancestors_of_closed
    (closed : (ofPins pins).isOpen path = false) :
    (∀ name ∈ (ofPins pins).ancestors path, name ≠ "" →
      (ofPins pins).isDeclared name = true) ∧
    ((∀ name ∈ (ofPins pins).ancestors path, name ≠ "" →
        (ofPins pins).isNamespace name = true) ↔
      ¬∃ ancestor ∈ (ofPins pins).ancestors path, ∃ name ∈ (ofPins pins).ancestors path,
        name ≠ "" ∧ (ofPins pins).RefersTo ancestor name ∧
          (ofPins pins).IsMereConstant name) := by
  refine ⟨?_, ?_, ?_⟩
  · intro name member notRoot
    rcases isNamespace_or_refersTo_of_closed closed member notRoot with isNamespace | refersTo
    · rw [isDeclared, isNamespace, Bool.true_or]
    · obtain ⟨ancestor, -, refers⟩ := refersTo
      exact refers.isDeclared
  · rintro allNamespaces ⟨ancestor, -, name, member, notRoot, -, isMere⟩
    have isNamespace := allNamespaces name member notRoot
    rw [isMere.2] at isNamespace
    cases isNamespace
  · intro noneMere name member notRoot
    rcases isNamespace_or_refersTo_of_closed closed member notRoot with isNamespace | refersTo
    · exact isNamespace
    · obtain ⟨ancestor, isAncestor, refers⟩ := refersTo
      have declared := refers.isDeclared
      rw [isDeclared, Bool.or_eq_true] at declared
      rcases declared with isNamespace | isConstant
      · exact isNamespace
      · by_cases isNamespace : (ofPins pins).isNamespace name = true
        · exact isNamespace
        · have isMere : (ofPins pins).IsMereConstant name :=
            ⟨isConstant, eq_false_of_ne_true isNamespace⟩
          exact absurd ⟨ancestor, isAncestor, name, member, notRoot, refers, isMere⟩ noneMere

end Closed

end Index

namespace ConstantSuperclass

open Stub.Layout

/-- The source `Base = Struct.new(:a)`, followed by `class Point < Base`. -/
def source : Source where
  filename := "point.rb"
  root :=
    branch .program none ⟨0, 0⟩ ⟨3, 0⟩
      [branch .assignment none ⟨0, 0⟩ ⟨0, 21⟩
        [leaf .constant (some .left) ⟨0, 0⟩ "Base",
          branch .call (some .right) ⟨0, 7⟩ ⟨0, 21⟩
            [leaf .constant (some .receiver) ⟨0, 7⟩ "Struct",
              leaf .operator (some .operator) ⟨0, 13⟩ ".",
              leaf .identifier (some .method) ⟨0, 14⟩ "new",
              branch .argumentList (some .arguments) ⟨0, 17⟩ ⟨0, 21⟩
                [leaf .symbol none ⟨0, 18⟩ ":a"]]],
        branch .classDefinition none ⟨1, 0⟩ ⟨2, 3⟩
          [leaf .constant (some .name) ⟨1, 6⟩ "Point",
            branch .superclass (some .superclass) ⟨1, 12⟩ ⟨1, 18⟩
              [leaf .constant none ⟨1, 14⟩ "Base"]]]
  isParsed := true

/-- The declarations of the source. -/
def pins : List Pin :=
  (Outline.ofSource 1 source).pins

/-- `Point` is closed. -/
theorem isOpen_point :
    (Index.ofPins pins).isOpen "Point" = false := by
  rw [Index.ofPins_eq_ofList]
  decide +kernel

/-- All ancestors of `Point` are declared. -/
theorem ancestors_of_point :
    (Index.ofPins pins).isOpen "Point" = false ∧
      ∀ name ∈ (Index.ofPins pins).ancestors "Point", name ≠ "" →
        (Index.ofPins pins).isDeclared name = true :=
  ⟨isOpen_point, (Index.ancestors_of_closed isOpen_point).1⟩

/-- `Point` is closed, but its ancestor `Base` is not a namespace. -/
theorem ancestors_of_closed_not_namespaces :
    ¬∀ (pins : List Pin) (path : String), (Index.ofPins pins).isOpen path = false →
      ∀ name ∈ (Index.ofPins pins).ancestors path, name ≠ "" →
        (Index.ofPins pins).isNamespace name = true := by
  intro allNamespaces
  have member : "Base" ∈ (Index.ofPins pins).ancestors "Point" := by
    rw [Index.ofPins_eq_ofList]
    decide +kernel
  have notNamespace : (Index.ofPins pins).isNamespace "Base" = false := by
    rw [Index.ofPins_eq_ofList]
    decide +kernel
  have isNamespace := allNamespaces pins "Point" isOpen_point "Base" member (by decide)
  rw [notNamespace] at isNamespace
  cases isNamespace

end ConstantSuperclass

end TagCheck
