import TagCheck.Proofs.Index.Overriding
import TagCheck.Proofs.Snapshot

namespace TagCheck

namespace Index

/-!
# Inherited tags

A method without a documented type takes it over from the nearest method of its name that has one.
The whole row of these methods is searched, with those that override the method in front.  So a tag
is inherited from an overridden method exactly when none of the overriding ones has such a tag.
-/

/-- What a method can take over from the documentation of another one. -/
inductive Tag where
  | returned
  | parameter (name : String)

/-- The type that a pin itself documents. -/
def Tag.type? : Tag → Pin → Option DocUnion
  | returned, pin => if pin.declared.isDefined then some pin.declared else none
  | parameter name, pin => pin.doc.paramType? name

/-- The type that a pin itself documents, with the namespace it is written in. -/
def Tag.written? (tag : Tag) (pin : Pin) : Option (DocUnion × String) :=
  (tag.type? pin).map (·, pin.closure.namespacePath)

/-- The documented type of a method or of one of its parameters, its own or inherited. -/
def tag? (index : Index) : Tag → Pin → Option (DocUnion × String)
  | .returned, method => index.returnTag? method
  | .parameter name, method => index.paramTag? method name

/-- The method whose documentation a method has: itself, or else the first one in its row. -/
def tagSource? (index : Index) (tag : Tag) (method : Pin) : Option Pin :=
  (method :: index.overridden method).find? fun pin => (tag.type? pin).isSome

section Sources

variable {index : Index}

/-- The first pin with a tag is the one whose tag is found. -/
theorem findSome?_written?
    {tag : Tag}
    {pins : List Pin} :
    pins.findSome? tag.written? =
      (pins.find? fun pin => (tag.type? pin).isSome).bind tag.written? := by
  induction pins with
  | nil =>
      rfl
  | cons pin rest inductionHypothesis =>
      cases documented : tag.type? pin <;>
        simp [Tag.written?, documented, inductionHypothesis]

theorem written?_returned :
    Tag.returned.written? = fun pin =>
      if pin.declared.isDefined then some (pin.declared, pin.closure.namespacePath) else none := by
  funext pin
  by_cases defined : pin.declared.isDefined <;> simp [Tag.written?, Tag.type?, defined]

theorem written?_parameter
    {name : String} :
    (Tag.parameter name).written? = fun pin =>
      (pin.doc.paramType? name).map (·, pin.closure.namespacePath) :=
  rfl

/-- The tag of a method is what its source documents. -/
theorem tag?_eq_bind
    {tag : Tag}
    {method : Pin} :
    index.tag? tag method = (index.tagSource? tag method).bind tag.written? := by
  have tag?_eq : index.tag? tag method =
      (method :: index.overridden method).findSome? tag.written? := by
    rw [List.findSome?_cons]
    cases tag with
    | returned =>
        rw [written?_returned, tag?, returnTag?]
        split <;> simp [*]
    | parameter name =>
        rw [written?_parameter, tag?, paramTag?]
        split <;> simp [*]
  rw [tag?_eq, findSome?_written?, tagSource?]

end Sources

end Index

namespace Snapshot.IsBuilt

open Index

variable {snapshot : Snapshot}

/--
A method without a tag of its own has the tag of another method of its name, which is looked up
along with it.  The tag comes from behind the method, that is from one that it overrides, exactly
when no method that overrides it has such a tag.
-/
theorem inherits_from_overridden_iff
    (built : snapshot.IsBuilt)
    {method : Pin}
    {path : String}
    {scope : Scope}
    (member : method ∈ snapshot.index.pins)
    (isMethod : methodKey? method = some (path, scope))
    {tag : Tag}
    (untagged : tag.type? method = none) :
    snapshot.index.tag? tag method =
        (snapshot.index.tagSource? tag method).bind tag.written? ∧
      (∀ source, snapshot.index.tagSource? tag method = some source →
        source ∈ snapshot.index.pins ∧ source ≠ method ∧ source.name = method.name ∧
          ∃ place ∈ snapshot.index.methodSources path scope, methodKey? source = some place) ∧
      ((∀ source, snapshot.index.tagSource? tag method = some source →
          [method, source].Sublist (snapshot.index.methodStack path method.name scope)) ↔
        ∀ pin ∈ snapshot.index.pins, snapshot.index.Overrides pin method →
          tag.type? pin = none) := by
  obtain ⟨overriding, overridden, stack_eq, notOverriding, apart, mem_overriding⟩ :=
    built.listed.overridden_eq_append built.nodup member isMethod
  have source_eq : snapshot.index.tagSource? tag method =
      (overriding ++ method :: overridden).find? fun pin => (tag.type? pin).isSome := by
    rw [tagSource?, List.find?_cons_of_neg (by simp [untagged]), overridden_of_methodKey? isMethod,
      stack_eq]
  refine ⟨tag?_eq_bind, ?_, ?_⟩
  · intro source isSource
    rw [source_eq, ← stack_eq] at isSource
    have inStack := built.listed.mem_methodStack.mp (List.mem_of_find?_eq_some isSource)
    refine ⟨inStack.1, ?_, inStack.2⟩
    rintro rfl
    have tagged := List.find?_some isSource
    rw [untagged] at tagged
    cases tagged
  · rw [stack_eq]
    simp only [pair_sublist_append_cons_iff notOverriding, source_eq]
    constructor
    · intro fromBehind pin declared overrides
      have isOverriding := (mem_overriding pin).mpr ⟨declared, overrides⟩
      by_contra isTagged
      -- The first tag is in front then, and what is in front does not come again behind.
      obtain ⟨source, found⟩ : ∃ source, overriding.find? (fun pin => (tag.type? pin).isSome) =
          some source := by
        rw [← Option.isSome_iff_exists, List.find?_isSome]
        exact ⟨pin, isOverriding, Option.isSome_iff_ne_none.mpr isTagged⟩
      have isBehind := fromBehind source (by rw [List.find?_append, found, Option.some_or])
      exact apart source isBehind (List.mem_of_find?_eq_some found)
    · intro noneTagged source found
      have nothing : overriding.find? (fun pin => (tag.type? pin).isSome) = none := by
        rw [List.find?_eq_none]
        intro pin isOverriding
        obtain ⟨declared, overrides⟩ := (mem_overriding pin).mp isOverriding
        simp [noneTagged pin declared overrides]
      rw [List.find?_append, nothing, Option.none_or,
        List.find?_cons_of_neg (by simp [untagged])] at found
      exact List.mem_of_find?_eq_some found

end Snapshot.IsBuilt

namespace DocumentedNames

open Index Stub.Layout

/-- A call that prepends a module to a class. -/
def prependingNode (place : Position) (moduleName : String) : SyntaxNode :=
  let name := leaf .identifier (some .method) place "prepend"
  let argument := leaf .constant none (behind name.span.stop " ") moduleName
  branch .call none place argument.span.stop
    [name, branch .argumentList (some .arguments) argument.span.start argument.span.stop [argument]]

/--
A module `Loud` and a class `Base`, each with a documented method `name`.  The subclass `Foo` of
`Base` defines the method anew, and so does a class `Bar` to which `Loud` is prepended.
-/
def source : Source where
  filename := "foo.rb"
  root :=
    branch .program none ⟨0, 0⟩ ⟨14, 0⟩
      [branch .moduleDefinition none ⟨0, 0⟩ ⟨3, 3⟩
        [leaf .constant (some .name) ⟨0, 7⟩ "Loud",
          methodNode ⟨1, 2⟩ false "name" [] ["@return [String]"]],
        branch .classDefinition none ⟨4, 0⟩ ⟨7, 3⟩
          [leaf .constant (some .name) ⟨4, 6⟩ "Base",
            methodNode ⟨5, 2⟩ false "name" [] ["@return [Symbol]"]],
        branch .classDefinition none ⟨8, 0⟩ ⟨10, 3⟩
          [leaf .constant (some .name) ⟨8, 6⟩ "Foo",
            branch .superclass (some .superclass) ⟨8, 10⟩ ⟨8, 16⟩
              [leaf .constant none ⟨8, 12⟩ "Base"],
            methodNode ⟨9, 2⟩ false "name" [] []],
        branch .classDefinition none ⟨11, 0⟩ ⟨14, 3⟩
          [leaf .constant (some .name) ⟨11, 6⟩ "Bar",
            prependingNode ⟨12, 2⟩ "Loud",
            methodNode ⟨13, 2⟩ false "name" [] []]]
  isParsed := true

def snapshot : Snapshot :=
  .ofSources [source]

/-- The methods that a class has under the name, with what they document. -/
def row (path : String) : List (Option (String × Scope) × Option DocUnion) :=
  (snapshot.index.methodStack path "name" .instanceLevel).map fun pin =>
    (methodKey? pin, Tag.returned.type? pin)

theorem row_foo :
    row "Foo" =
      [(some ("Foo", .instanceLevel), none),
        (some ("Base", .instanceLevel), some (.named "Symbol"))] := by
  unfold row snapshot
  rw [Snapshot.ofSources_eq_ofList]
  decide +kernel

theorem row_bar :
    row "Bar" =
      [(some ("Loud", .instanceLevel), some (.named "String")),
        (some ("Bar", .instanceLevel), none)] := by
  unfold row snapshot
  rw [Snapshot.ofSources_eq_ofList]
  decide +kernel

/-- Nothing that overrides `Foo#name` is documented: nothing overrides it at all. -/
theorem noneDocumented_foo :
    snapshot.index.mixins "Foo" .prepending = [] ∧
      ∀ pin ∈ snapshot.index.pins, methodKey? pin = some ("Foo", .instanceLevel) →
        Tag.returned.type? pin = none := by
  unfold snapshot
  rw [Snapshot.ofSources_eq_ofList]
  decide +kernel

/-- Two methods that stand in a row alone. -/
theorem exists_of_row
    {path : String}
    {first second : Option (String × Scope) × Option DocUnion}
    (row_eq : row path = [first, second]) :
    ∃ nearer further,
      snapshot.index.methodStack path "name" .instanceLevel = [nearer, further] ∧
        nearer ∈ snapshot.index.pins ∧ nearer.name = "name" ∧
        further ∈ snapshot.index.pins ∧ further.name = "name" ∧
        (methodKey? nearer, Tag.returned.type? nearer) = first ∧
        (methodKey? further, Tag.returned.type? further) = second := by
  obtain ⟨nearer, rest, stack_eq, isFirst, rest_eq⟩ := List.map_eq_cons_iff.mp row_eq
  obtain ⟨further, nothing, rfl, isSecond, empty⟩ := List.map_eq_cons_iff.mp rest_eq
  cases List.map_eq_nil_iff.mp empty
  have inStack : ∀ pin ∈ [nearer, further],
      pin ∈ snapshot.index.pins ∧ pin.name = "name" := by
    intro pin member
    rw [← stack_eq] at member
    have declared := (Snapshot.IsBuilt.ofSources [source]).listed.mem_methodStack.mp member
    exact ⟨declared.1, declared.2.1⟩
  obtain ⟨nearerDeclared, nearerName⟩ := inStack nearer List.mem_cons_self
  obtain ⟨furtherDeclared, furtherName⟩ :=
    inStack further (List.mem_cons_of_mem nearer List.mem_cons_self)
  exact ⟨nearer, further, stack_eq, nearerDeclared, nearerName, furtherDeclared, furtherName,
    isFirst, isSecond⟩

/-- The method of `Foo` has the tag of the method that it overrides. -/
theorem inherits_symbol :
    ∃ foo base, methodKey? foo = some ("Foo", .instanceLevel) ∧
      methodKey? base = some ("Base", .instanceLevel) ∧
      snapshot.index.tagSource? .returned foo = some base ∧
        [foo, base].Sublist (snapshot.index.methodStack "Foo" foo.name .instanceLevel) := by
  obtain ⟨foo, base, stack_eq, declared, isName, -, -, isFoo, isBase⟩ := exists_of_row row_foo
  obtain ⟨isFoo, untagged⟩ := Prod.mk.inj isFoo
  obtain ⟨isBase, tagged⟩ := Prod.mk.inj isBase
  have isSource : snapshot.index.tagSource? .returned foo = some base := by
    rw [tagSource?, overridden_of_methodKey? isFoo, isName, stack_eq]
    simp [untagged, tagged]
  have noneTagged : ∀ pin ∈ snapshot.index.pins, snapshot.index.Overrides pin foo →
      Tag.returned.type? pin = none := by
    intro pin member overrides
    cases overrides with
    | redefines _ sameKey _ =>
        exact noneDocumented_foo.2 pin member (sameKey.trans isFoo)
    | prepended _ isInstance _ isPrepended =>
        cases isFoo.symm.trans isInstance
        exact absurd isPrepended (not_isPrepended noneDocumented_foo.1)
  refine ⟨foo, base, isFoo, isBase, isSource, ?_⟩
  exact ((Snapshot.IsBuilt.ofSources [source]).inherits_from_overridden_iff declared isFoo
    untagged).2.2.mpr noneTagged base isSource

/-- The method of `Bar` has the tag of the module that is looked up in front of `Bar`. -/
theorem inherits_from_prepended :
    ¬∀ (snapshot : Snapshot) (method : Pin) (path : String) (scope : Scope) (tag : Tag)
        (found : DocUnion × String), snapshot.IsBuilt → method ∈ snapshot.index.pins →
          methodKey? method = some (path, scope) → tag.type? method = none →
            snapshot.index.tag? tag method = some found →
              ∃ source,
                [method, source].Sublist
                  (snapshot.index.methodStack path method.name scope) ∧
                tag.written? source = some found := by
  intro alwaysOverridden
  obtain ⟨loud, bar, stack_eq, -, -, declared, isName, isLoud, isBar⟩ := exists_of_row row_bar
  obtain ⟨isBar, untagged⟩ := Prod.mk.inj isBar
  obtain ⟨isLoud, tagged⟩ := Prod.mk.inj isLoud
  have written : Tag.returned.written? loud =
      some (.named "String", loud.closure.namespacePath) := by
    rw [Tag.written?, tagged, Option.map_some]
  have found : snapshot.index.tag? .returned bar =
      some (.named "String", loud.closure.namespacePath) := by
    rw [tag?_eq_bind, tagSource?, overridden_of_methodKey? isBar, isName, stack_eq]
    simp [untagged, tagged, written]
  obtain ⟨source, behind, -⟩ :=
    alwaysOverridden snapshot bar "Bar" .instanceLevel .returned _ (.ofSources [source]) declared
      isBar untagged found
  rw [isName, stack_eq] at behind
  cases behind.eq_of_length rfl
  rw [untagged] at tagged
  cases tagged

end DocumentedNames

end TagCheck
