import TagCheck.Proofs.Index.MethodLookup
import TagCheck.Proofs.Outline.SelfBlock
import TagCheck.Proofs.Snapshot

namespace TagCheck

/-!
# Look-ups after a rearrangement

What an index finds follows from what its pins declare.  The order of the declarations counts for
namespaces and mixin calls, and for several methods of one namespace, level and name; but these have
one path.  So an index of rearranged declarations has the same ancestors, and methods at the same
paths.
-/

namespace Declaration

/-- The kind of namespace that is declared at a path. -/
def namespaceKindAt? (path : String) (declaration : Declaration) : Option NamespaceKind :=
  match declaration.kind with
  | .namespaceOf kind _ _ => if declaration.path = path then some kind else none
  | _ => none

/-- The superclass that is written for the class at a path, with the lexical nesting around it. -/
def superclassAt? (path : String) (declaration : Declaration) : Option (String × List String) :=
  match declaration.kind with
  | .namespaceOf _ (some superclass) gates =>
      if declaration.path = path then some (superclass, gates.drop 1) else none
  | _ => none

/-- The module that is mixed into a namespace, with the lexical nesting of the call. -/
def mixinOf? (path : String) (kind : ReferenceKind) (declaration : Declaration) :
    Option (String × List String) :=
  match declaration.kind with
  | .reference referenceKind gates =>
      if declaration.closure.namespacePath = path ∧ referenceKind = kind then
        some (declaration.name, gates)
      else
        none
  | _ => none

/-- A constant is assigned at a path. -/
def isConstantAt (path : String) (declaration : Declaration) : Bool :=
  match declaration.kind with
  | .constant => declaration.path = path
  | _ => false

/-- A method of a namespace and a level has a name. -/
def isMethodOf (owner : String) (level : Scope) (name : String) (declaration : Declaration) :
    Bool :=
  match declaration.kind with
  | .method scope _ _ =>
      declaration.closure.namespacePath = owner && scope = level && declaration.name = name
  | _ => false

section NotStructural

variable {declaration : Declaration} (notStructural : declaration.isStructural = false)
include notStructural

theorem namespaceKindAt?_eq_none
    (path : String) :
    declaration.namespaceKindAt? path = none := by
  unfold namespaceKindAt?
  cases isKind : declaration.kind with
  | namespaceOf _ _ _ =>
      simp [isStructural, isKind] at notStructural
  | _ =>
      rfl

theorem superclassAt?_eq_none
    (path : String) :
    declaration.superclassAt? path = none := by
  unfold superclassAt?
  cases isKind : declaration.kind with
  | namespaceOf _ _ _ =>
      simp [isStructural, isKind] at notStructural
  | _ =>
      rfl

theorem mixinOf?_eq_none
    (path : String)
    (kind : ReferenceKind) :
    declaration.mixinOf? path kind = none := by
  unfold mixinOf?
  cases isKind : declaration.kind with
  | reference _ _ =>
      simp [isStructural, isKind] at notStructural
  | _ =>
      rfl

end NotStructural

/-- The path of a method is that of its namespace, its level and its name. -/
def HasOwnPath (declaration : Declaration) : Prop :=
  ∀ scope parameters isAttribute, declaration.kind = .method scope parameters isAttribute →
    declaration.path = methodPath declaration.closure.namespacePath declaration.name scope

namespace IsRearrangementOf

variable {others declarations : List Declaration}

/-- What is read off the structure is read in the same order. -/
theorem filterMap_eq
    (rearranged : IsRearrangementOf others declarations)
    {read : Declaration → Option β}
    (readsStructure : ∀ declaration, declaration.isStructural = false → read declaration = none) :
    others.filterMap read = declarations.filterMap read := by
  have structural_eq (all : List Declaration) :
      (all.filter isStructural).filterMap read = all.filterMap read := by
    rw [List.filterMap_filter]
    refine List.filterMap_congr fun declaration _ => ?_
    split
    · rfl
    · next notStructural =>
        exact (readsStructure declaration (Bool.eq_false_iff.mpr notStructural)).symm
  rw [← structural_eq others, rearranged.structural_eq, structural_eq]

end IsRearrangementOf

end Declaration

namespace Region

variable {region : Region} {node : SyntaxNode} {declaration : Declaration}

/-- Every declared method has the path of its namespace, its level and its name. -/
theorem hasOwnPath_of_mem_declarations
    (member : declaration ∈ region.declarations node) :
    declaration.HasOwnPath := by
  cases canDeclare_of_mem_declarations member with
  | namespaceOf _ declares =>
      obtain ⟨path, -, rfl⟩ := Option.map_eq_some_iff.mp declares
      rintro _ _ _ ⟨⟩
  | method declares =>
      obtain ⟨name, -, rfl⟩ := Option.map_eq_some_iff.mp declares
      rintro _ _ _ ⟨⟩
      rfl
  | variableOf _ _ _ isVariable =>
      rcases isVariable with rfl | rfl | rfl | rfl <;> rintro _ _ _ ⟨⟩
  | reference _ _ _ _ =>
      rintro _ _ _ ⟨⟩
  | attributeMethod _ _ =>
      rintro _ _ _ ⟨⟩
      rfl

theorem hasOwnPath_of_mem_declared
    (member : declaration ∈ region.declared node) :
    declaration.HasOwnPath := by
  obtain ⟨part, -, declares⟩ := List.mem_flatMap.mp member
  exact hasOwnPath_of_mem_declarations declares

end Region

namespace Index

section Rearranged

variable (pins : List Pin) (path : String)

theorem namespaceKind?_ofList :
    (ofList pins).namespaceKind? path =
      ((pins.map Declaration.ofPin).filterMap (Declaration.namespaceKindAt? path)).head? := by
  rw [List.filterMap_map, namespaceKind?, ← List.head?_filterMap, ofList, List.filterMap_filter]
  congr 2
  funext pin
  cases isKind : pin.kind <;>
    simp [declaredKind?, Declaration.namespaceKindAt?, Declaration.ofPin, DeclaredKind.ofKind, isKind]

theorem superclassReference?_ofList :
    (ofList pins).superclassReference? path =
      ((pins.map Declaration.ofPin).filterMap (Declaration.superclassAt? path)).head? := by
  rw [List.filterMap_map, superclassReference?, ← List.head?_filterMap, ofList,
    List.filterMap_filter]
  congr 2
  funext pin
  cases isKind : pin.kind with
  | namespacePin kind superclass gates =>
      cases superclass <;>
        simp [writtenSuperclass?, Declaration.superclassAt?, Declaration.ofPin,
          DeclaredKind.ofKind, isKind]
  | _ =>
      simp [writtenSuperclass?, Declaration.superclassAt?, Declaration.ofPin, DeclaredKind.ofKind,
        isKind]

theorem map_references_ofList
    (kind : ReferenceKind) :
    ((ofList pins).references path kind).map (fun pin => (pin.name, pin.gates)) =
      (pins.map Declaration.ofPin).filterMap (Declaration.mixinOf? path kind) := by
  rw [List.filterMap_map, references, ofList, ← List.filterMap_eq_map, List.filterMap_filter,
    List.filterMap_filter]
  congr 1
  funext pin
  cases isKind : pin.kind with
  | reference referenceKind gates =>
      by_cases inNamespace : pin.closure.namespacePath = path <;>
        simp [referenceKey?, Declaration.mixinOf?, Declaration.ofPin, DeclaredKind.ofKind,
          PinOf.gates, isKind, inNamespace]
  | _ =>
      simp [referenceKey?, Declaration.mixinOf?, Declaration.ofPin, DeclaredKind.ofKind, isKind]

theorem isConstant_ofList :
    (ofList pins).isConstant path =
      (pins.map Declaration.ofPin).any (Declaration.isConstantAt path) := by
  rw [List.any_map, isConstant, ofList, List.any_filter]
  congr 1
  funext pin
  cases isKind : pin.kind <;>
    simp [PinOf.isConstant, Declaration.isConstantAt, Declaration.ofPin, DeclaredKind.ofKind, isKind]

/-- A namespace itself has a method of a name if one is declared. -/
theorem any_ownMethods_ofList
    (level : Scope)
    (name : String) :
    ((ofList pins).ownMethods path level).any (·.name = name) =
      (pins.map Declaration.ofPin).any (Declaration.isMethodOf path level name) := by
  rw [List.any_map, ofList, List.any_filter]
  congr 1
  funext pin
  cases isKind : pin.kind <;>
    simp [methodKey?, Declaration.isMethodOf, Declaration.ofPin, DeclaredKind.ofKind, isKind]

end Rearranged

/-- Two indexes have the same namespaces, with the same mixins and the same superclasses. -/
structure HasAncestryOf (other index : Index) : Prop where
  walkLimit : other.walkLimit = index.walkLimit
  namespaceKind? : other.namespaceKind? = index.namespaceKind?
  mixins : other.mixins = index.mixins
  superclassOf? : other.superclassOf? = index.superclassOf?

namespace HasAncestryOf

variable {other index : Index} (sameAncestry : HasAncestryOf other index)
include sameAncestry

theorem listWithMixins
    (listModule : Walk → String → Walk) :
    other.listWithMixins listModule = index.listWithMixins listModule := by
  funext walk path
  rw [Index.listWithMixins, Index.listWithMixins, sameAncestry.mixins]

theorem listModule
    (limit : Nat) :
    other.listModule limit = index.listModule limit := by
  induction limit with
  | zero =>
      rfl
  | succ limit inductionHypothesis =>
      funext walk path
      rw [Index.listModule, Index.listModule, inductionHypothesis, sameAncestry.listWithMixins]

theorem listAncestors
    (limit : Nat) :
    other.listAncestors limit = index.listAncestors limit := by
  induction limit with
  | zero =>
      rfl
  | succ limit inductionHypothesis =>
      funext walk path
      rw [Index.listAncestors, Index.listAncestors, inductionHypothesis, sameAncestry.walkLimit,
        sameAncestry.listModule, sameAncestry.listWithMixins, sameAncestry.superclassOf?]

theorem superclassChain
    (limit : Nat) :
    other.superclassChain limit = index.superclassChain limit := by
  induction limit with
  | zero =>
      rfl
  | succ limit inductionHypothesis =>
      funext visited path
      rw [Index.superclassChain, Index.superclassChain, inductionHypothesis,
        sameAncestry.namespaceKind?, sameAncestry.superclassOf?]

theorem ancestors :
    other.ancestors = index.ancestors := by
  funext path
  rw [Index.ancestors, Index.ancestors, sameAncestry.walkLimit, sameAncestry.listAncestors]

theorem moduleAncestors :
    other.moduleAncestors = index.moduleAncestors := by
  funext path
  rw [Index.moduleAncestors, Index.moduleAncestors, sameAncestry.walkLimit,
    sameAncestry.listModule]

/-- Methods are looked up in the same namespaces on the same levels. -/
theorem methodSources :
    other.methodSources = index.methodSources := by
  have sameSources : other.classLevelSources = index.classLevelSources := by
    funext path
    rw [classLevelSources, classLevelSources, sameAncestry.mixins, sameAncestry.moduleAncestors]
  funext path scope
  cases scope with
  | instanceLevel =>
      rw [Index.methodSources, Index.methodSources, sameAncestry.ancestors,
        sameAncestry.namespaceKind?]
  | classLevel =>
      rw [Index.methodSources, Index.methodSources, sameAncestry.ancestors,
        sameAncestry.namespaceKind?, sameAncestry.walkLimit, sameAncestry.superclassChain,
        sameSources]

end HasAncestryOf

/-- The mixins of a namespace follow from the names that its mixin calls write. -/
theorem mixins_eq_filterMap
    (index : Index)
    (path : String)
    (kind : ReferenceKind) :
    index.mixins path kind =
      if index.isNamespace path then
        ((index.references path kind).map fun pin => (pin.name, pin.gates)).filterMap
          fun (name, gates) => index.qualifyLexical? name gates
      else
        [] := by
  rw [List.filterMap_map]
  rfl

/-- Rearranged declarations lead to the same ancestors. -/
theorem hasAncestryOf_of_rearranged
    {others pins : List Pin}
    (rearranged : Declaration.IsRearrangementOf (others.map Declaration.ofPin)
      (pins.map Declaration.ofPin)) :
    HasAncestryOf (ofList others) (ofList pins) := by
  have sameLimit : (ofList others).walkLimit = (ofList pins).walkLimit := by
    have sameLength := rearranged.perm.length_eq
    rw [List.length_map, List.length_map] at sameLength
    exact congrArg (· + 3) sameLength
  have sameKind : (ofList others).namespaceKind? = (ofList pins).namespaceKind? := by
    funext path
    rw [namespaceKind?_ofList, namespaceKind?_ofList, rearranged.filterMap_eq]
    exact fun _ notStructural => Declaration.namespaceKindAt?_eq_none notStructural path
  have sameSuperclass :
      (ofList others).superclassReference? = (ofList pins).superclassReference? := by
    funext path
    rw [superclassReference?_ofList, superclassReference?_ofList, rearranged.filterMap_eq]
    exact fun _ notStructural => Declaration.superclassAt?_eq_none notStructural path
  have sameReferences (path : String) (kind : ReferenceKind) :
      ((ofList others).references path kind).map (fun pin => (pin.name, pin.gates)) =
        ((ofList pins).references path kind).map fun pin => (pin.name, pin.gates) := by
    rw [map_references_ofList, map_references_ofList, rearranged.filterMap_eq]
    exact fun _ notStructural => Declaration.mixinOf?_eq_none notStructural path kind
  have sameDeclared : (ofList others).isDeclared = (ofList pins).isDeclared := by
    funext path
    rw [isDeclared, isDeclared, isNamespace, isNamespace, sameKind, isConstant_ofList,
      isConstant_ofList, rearranged.perm.any_eq]
  have sameQualified : (ofList others).qualifyLexical? = (ofList pins).qualifyLexical? := by
    funext name gates
    rw [qualifyLexical?, qualifyLexical?, sameDeclared]
  refine ⟨sameLimit, sameKind, ?_, ?_⟩
  · funext path kind
    rw [mixins_eq_filterMap, mixins_eq_filterMap, isNamespace, isNamespace, sameKind,
      sameReferences, sameQualified]
  · funext path
    unfold superclassOf? explicitSuperclass?
    rw [sameKind, sameSuperclass, sameQualified]

section MethodPaths

variable {index other : Index} {path name : String} {scope : Scope}

/-- Every method of an index has the path of its namespace, its level and its name. -/
def HasOwnPaths (index : Index) : Prop :=
  ∀ owner level, ∀ pin ∈ index.ownMethods owner level, pin.path = methodPath owner pin.name level

theorem hasOwnPaths_ofList
    {pins : List Pin}
    (ownPaths : ∀ declaration ∈ pins.map Declaration.ofPin, declaration.HasOwnPath) :
    HasOwnPaths (ofList pins) := by
  intro owner level pin member
  obtain ⟨isPin, isOwn⟩ := List.mem_filter.mp member
  rw [decide_eq_true_eq] at isOwn
  unfold methodKey? at isOwn
  split at isOwn
  · next detail isMethod =>
      cases isOwn
      exact ownPaths _ (List.mem_map_of_mem isPin) _ _ _ (congrArg DeclaredKind.ofKind isMethod)
  · cases isOwn

/-- The method that a call reaches has the path of its name in the first namespace that has it. -/
theorem map_path_method?
    (ownPaths : index.HasOwnPaths) :
    (index.method? path name scope).map (·.path) =
      (index.methodSources path scope).findSome? fun (owner, level) =>
        if (index.ownMethods owner level).any (·.name = name) then
          some (methodPath owner name level)
        else
          none := by
  rw [method?, List.map_findSome?]
  refine congrArg (List.findSome? · _) (funext fun (owner, level) => ?_)
  have any_eq : (index.ownMethods owner level).any (·.name = name) =
      ((index.ownMethods owner level).reverse.find? (·.name = name)).isSome := by
    rw [List.isSome_find?, List.any_reverse]
  rw [Function.comp_apply]
  dsimp only
  rw [any_eq]
  cases found : (index.ownMethods owner level).reverse.find? (·.name = name) with
  | none =>
      rfl
  | some pin =>
      have named : pin.name = name := by
        simpa using List.find?_some found
      have member : pin ∈ index.ownMethods owner level :=
        List.mem_reverse.mp (List.mem_of_find?_eq_some found)
      rw [Option.map_some, ownPaths owner level pin member, named]
      rfl

/-- A name and a path belong together if a call of the name reaches a method at the path. -/
theorem mem_map_name_path_methods
    {methodAt : String} :
    (name, methodAt) ∈ (index.methods path scope).map (fun pin => (pin.name, pin.path)) ↔
      (index.method? path name scope).map (·.path) = some methodAt := by
  rw [method?_eq_find?, ← find?_firstOfEachName List.not_mem_nil, List.mem_map,
    Option.map_eq_some_iff]
  simp only [find?_key_eq_some_iff nodup_names_firstOfEachName, methods, Prod.mk.injEq, and_assoc]

/-- If every call reaches methods at the same path, then the methods have the same paths. -/
theorem perm_map_path_methods
    (samePaths : ∀ name, (other.method? path name scope).map (·.path) =
      (index.method? path name scope).map (·.path)) :
    ((other.methods path scope).map (·.path)).Perm ((index.methods path scope).map (·.path)) := by
  have nodup (all : Index) :
      ((all.methods path scope).map fun pin => (pin.name, pin.path)).Nodup := by
    refine List.Nodup.of_map Prod.fst ?_
    rw [List.map_map]
    exact nodup_names_firstOfEachName
  have sameNames : ((other.methods path scope).map fun pin => (pin.name, pin.path)).Perm
      ((index.methods path scope).map fun pin => (pin.name, pin.path)) := by
    refine (List.perm_ext_iff_of_nodup (nodup other) (nodup index)).mpr ?_
    rintro ⟨name, methodAt⟩
    rw [mem_map_name_path_methods, mem_map_name_path_methods, samePaths]
  have samePerm := sameNames.map Prod.snd
  rw [List.map_map, List.map_map] at samePerm
  exact samePerm

/-- Rearranged declarations lead to methods at the same paths. -/
theorem perm_map_path_methods_of_rearranged
    {others pins : List Pin}
    (rearranged : Declaration.IsRearrangementOf (others.map Declaration.ofPin)
      (pins.map Declaration.ofPin))
    (ownPaths : ∀ declaration ∈ pins.map Declaration.ofPin, declaration.HasOwnPath)
    (path : String)
    (scope : Scope) :
    (((ofList others).methods path scope).map (·.path)).Perm
      (((ofList pins).methods path scope).map (·.path)) := by
  have otherPaths : ∀ declaration ∈ others.map Declaration.ofPin, declaration.HasOwnPath :=
    fun declaration member => ownPaths declaration (rearranged.perm.mem_iff.mp member)
  refine perm_map_path_methods fun name => ?_
  rw [map_path_method? (hasOwnPaths_ofList otherPaths),
    map_path_method? (hasOwnPaths_ofList ownPaths),
    (hasAncestryOf_of_rearranged rearranged).methodSources]
  simp only [any_ownMethods_ofList, rearranged.perm.any_eq]

end MethodPaths

end Index

namespace Snapshot

/-- The pins of a snapshot's outlines declare what the sources declare. -/
theorem map_ofPin_outlinesOf
    (sources : List Source) :
    ((outlinesOf 0 sources).flatMap (·.pins)).map Declaration.ofPin =
      sources.flatMap Source.declared := by
  rw [outlinesOf, List.flatMap_map, List.map_flatMap]
  simp only [Source.map_ofPin_pins]
  rw [← List.flatMap_map Prod.fst Source.declared, List.zipIdx_map_fst]

/-- All methods of the core library and of sources have their own paths. -/
theorem hasOwnPath_declarations
    (sources : List Source) :
    ∀ declaration ∈ (CoreLibrary.pins ++ (outlinesOf 0 sources).flatMap (·.pins)).map
      Declaration.ofPin, declaration.HasOwnPath := by
  intro declaration member
  rw [List.map_append, map_ofPin_outlinesOf, CoreLibrary.pins,
    Survey.map_ofPin_reverse_ofProgram] at member
  rcases List.mem_append.mp member with isCore | isDeclared
  · obtain ⟨statement, -, declares⟩ := List.mem_flatMap.mp isCore
    exact Region.hasOwnPath_of_mem_declared declares
  · obtain ⟨source, -, ofSource⟩ := List.mem_flatMap.mp isDeclared
    rcases List.mem_cons.mp ofSource with rfl | ofStatement
    · rintro _ _ _ ⟨⟩
    · obtain ⟨statement, -, declares⟩ := List.mem_flatMap.mp ofStatement
      exact Region.hasOwnPath_of_mem_declared declares

/--
If methods `def self.m` are moved into blocks `class << self`, then every namespace keeps the paths of
its methods on both levels.
-/
theorem methods_moved
    {moved sources : List Source}
    (haveMoved : List.Forall₂ Source.HasMovedMethods moved sources)
    (path : String)
    (scope : Scope) :
    (((ofSources moved).index.methods path scope).map (·.path)).Perm
      (((ofSources sources).index.methods path scope).map (·.path)) := by
  rw [ofSources_eq_ofList, ofSources_eq_ofList]
  refine Index.perm_map_path_methods_of_rearranged ?_ (hasOwnPath_declarations sources) path scope
  rw [List.map_append, List.map_append, map_ofPin_outlinesOf, map_ofPin_outlinesOf]
  refine (Declaration.IsRearrangementOf.refl _).append (.flatMap haveMoved ?_)
  exact fun _ _ _ hasMoved => hasMoved.isRearrangementOf

end Snapshot

namespace SelfBlocks

open Stub.Layout

/-- A class `Foo` with a statement. -/
def fooClass (statement : SyntaxNode) : SyntaxNode :=
  branch .classDefinition none ⟨3, 0⟩ ⟨7, 3⟩ [leaf .constant (some .name) ⟨3, 6⟩ "Foo", statement]

/-- A module `M` with the method `helper`, and a class `Foo` with a statement behind it. -/
def source (statement : SyntaxNode) : Source where
  filename := "foo.rb"
  root :=
    branch .program none ⟨0, 0⟩ ⟨8, 0⟩
      [branch .moduleDefinition none ⟨0, 0⟩ ⟨2, 3⟩
        [leaf .constant (some .name) ⟨0, 7⟩ "M",
          branch .method none ⟨1, 2⟩ ⟨1, 17⟩ [leaf .identifier (some .name) ⟨1, 6⟩ "helper"]],
        fooClass statement]
  isParsed := true

/-- The block `class << self` around a statement. -/
def block (statement : SyntaxNode) : SyntaxNode :=
  branch .singletonClass none ⟨4, 2⟩ ⟨6, 5⟩
    [leaf .selfReference (some .value) ⟨4, 11⟩ "self", statement]

/-- The definition `def self.make; end`. -/
def selfMethod : SyntaxNode :=
  branch .singletonMethod none ⟨4, 2⟩ ⟨4, 20⟩
    [leaf .selfReference (some .object) ⟨4, 6⟩ "self",
      leaf .identifier (some .name) ⟨4, 11⟩ "make"]

/-- The definition `def make; end`. -/
def method : SyntaxNode :=
  branch .method none ⟨5, 4⟩ ⟨5, 17⟩ [leaf .identifier (some .name) ⟨5, 8⟩ "make"]

/-- A call of a name with the module `M`. -/
def mixinCall (place : Position) (name : String) : SyntaxNode :=
  let called := leaf .identifier (some .method) place name
  let argument := leaf .constant none (behind called.span.stop " ") "M"
  branch .call none place argument.span.stop
    [called,
      branch .argumentList (some .arguments) argument.span.start argument.span.stop [argument]]

/-- The place behind the names of classes. -/
def behindName? (node : SyntaxNode) : Option Nat :=
  if node.kind = .classDefinition then some 1 else none

/-- The class method `make` is moved into a block, and `Foo` keeps the paths of its class methods. -/
theorem methods_moved_make :
    List.Forall₂ Source.HasMovedMethods [source (block method)] [source selfMethod] ∧
      (((Snapshot.ofSources [source (block method)]).index.methods "Foo" .classLevel).map
        (·.path)).Perm
        (((Snapshot.ofSources [source selfMethod]).index.methods "Foo" .classLevel).map
          (·.path)) := by
  have hasMoved : Source.HasMovedMethods (source (block method)) (source selfMethod) :=
    ⟨.ofSelfMethods behindName?, Regrouping.movesPlainMethods_ofSelfMethods _,
      .cons rfl (.cons rfl .nil)⟩
  have haveMoved := List.Forall₂.cons hasMoved .nil
  exact ⟨haveMoved, Snapshot.methods_moved haveMoved "Foo" .classLevel⟩

/-- All definitions and calls are moved into blocks of classes. -/
def everything : Regrouping where
  place? := behindName?
  isChosen _ := true

/-- `extend M` makes `helper` a class method; moved into a block, `include M` does not. -/
theorem methods_moved_extension :
    ¬∀ (regrouping : Regrouping) (moved source : Source),
      Source.IsRegrouped regrouping moved source → ∀ path scope,
        (((Snapshot.ofSources [moved]).index.methods path scope).map (·.path)).Perm
          (((Snapshot.ofSources [source]).index.methods path scope).map (·.path)) := by
  intro same
  have isRegrouped : Source.IsRegrouped everything (source (block (mixinCall ⟨5, 4⟩ "include")))
      (source (mixinCall ⟨4, 2⟩ "extend")) :=
    .cons rfl (.cons rfl .nil)
  have perm := same _ _ _ isRegrouped "Foo" .classLevel
  have paths :
      "M#helper" ∈ ((Snapshot.ofSources [source (mixinCall ⟨4, 2⟩ "extend")]).index.methods "Foo"
        .classLevel).map (·.path) ∧
      "M#helper" ∉ ((Snapshot.ofSources
        [source (block (mixinCall ⟨5, 4⟩ "include"))]).index.methods "Foo" .classLevel).map
          (·.path) := by
    rw [Snapshot.ofSources_eq_ofList, Snapshot.ofSources_eq_ofList]
    decide +kernel
  exact paths.2 (perm.mem_iff.mpr paths.1)

end SelfBlocks

end TagCheck
