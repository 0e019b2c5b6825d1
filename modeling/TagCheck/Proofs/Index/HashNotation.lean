import Mathlib.Logic.Relation
import TagCheck.Proofs.DocType.Substitution
import TagCheck.Proofs.Index.Compatibility

namespace TagCheck

/-!
# The two notations of hashes

`Hash<K, V>` holds its types as positional parameters, and `Hash{K => V}` as key and value
parameters.  Both have the same key type and the same element type, and a comparison of types asks
for nothing else.  So an occurrence of the first notation may be rewritten to the second one at any
depth: the alternatives before and after resemble each other, and their key and element types consist
of alternatives that resemble each other again.
-/

namespace DocType

/-- `Hash<K, V>` -/
def angleHash (key value : DocUnion) (nullable : Bool) : DocType :=
  ⟨"Hash", [key, value], [], [], nullable⟩

/-- `Hash{K => V}` -/
def braceHash (key value : DocUnion) (nullable : Bool) : DocType :=
  ⟨"Hash", [], [key], [value], nullable⟩

mutual

/-- One `Hash<K, V>`, which is the alternative or stands inside of it, is written `Hash{K => V}`. -/
inductive RewritesHash : DocType → DocType → Prop
  | hash (key value : DocUnion) (nullable : Bool) :
      RewritesHash (angleHash key value nullable) (braceHash key value nullable)
  | ordered {name : String} {front back keys values : List DocUnion}
      {parameter parameter' : DocUnion} {nullable : Bool}
      (inside : RewritesHashIn parameter parameter') :
      RewritesHash ⟨name, front ++ parameter :: back, keys, values, nullable⟩
        ⟨name, front ++ parameter' :: back, keys, values, nullable⟩
  | keys {name : String} {front back ordered values : List DocUnion}
      {parameter parameter' : DocUnion} {nullable : Bool}
      (inside : RewritesHashIn parameter parameter') :
      RewritesHash ⟨name, ordered, front ++ parameter :: back, values, nullable⟩
        ⟨name, ordered, front ++ parameter' :: back, values, nullable⟩
  | values {name : String} {front back ordered keys : List DocUnion}
      {parameter parameter' : DocUnion} {nullable : Bool}
      (inside : RewritesHashIn parameter parameter') :
      RewritesHash ⟨name, ordered, keys, front ++ parameter :: back, nullable⟩
        ⟨name, ordered, keys, front ++ parameter' :: back, nullable⟩

/--
One alternative of a union is rewritten.  If it then repeats another one, the repetition may be
dropped.
-/
inductive RewritesHashIn : DocUnion → DocUnion → Prop
  | kept (before after : List DocType) {type type' : DocType} (inside : RewritesHash type type') :
      RewritesHashIn (before ++ type :: after) (before ++ type' :: after)
  | merged (before after : List DocType) {type type' : DocType}
      (inside : RewritesHash type type') :
      RewritesHashIn (before ++ type :: after) (DocUnion.ofList (before ++ type' :: after))

end

section Classes

theorem refersToFirst_ofList
    (union : DocUnion) :
    refersToFirst (DocUnion.ofList union) = refersToFirst union := by
  cases union with
  | nil =>
      rfl
  | cons first rest =>
      obtain ⟨others, isList⟩ := DocUnion.ofList_cons first rest
      rw [isList]
      rfl

theorem refersToFirst_append_cons
    {type type' : DocType}
    (same : type.refersTo = type'.refersTo)
    (before after : List DocType) :
    refersToFirst (before ++ type :: after) = refersToFirst (before ++ type' :: after) := by
  cases before with
  | nil =>
      exact congrArg some same
  | cons first others =>
      rfl

/-- A single parameter is all that decides about the class inside of a class type. -/
theorem refersToOnly_append_cons
    {parameter parameter' : DocUnion}
    (same : refersToFirst parameter = refersToFirst parameter')
    (front back : List DocUnion) :
    refersToOnly (front ++ parameter :: back) = refersToOnly (front ++ parameter' :: back) := by
  cases front with
  | nil =>
      cases back with
      | nil =>
          exact same
      | cons next others =>
          rfl
  | cons first others =>
      cases others <;> rfl

mutual

/-- Rewriting a hash keeps the class that a type is about. -/
theorem refersTo_of_rewritesHash
    {type type' : DocType} :
    RewritesHash type type' → type.refersTo = type'.refersTo
  | .hash _ _ _ => rfl
  | @RewritesHash.ordered _ front back _ _ _ _ _ inside => by
      have sameOnly := refersToOnly_append_cons (refersToFirst_of_rewritesHashIn inside) front back
      rw [refersTo, refersTo, sameOnly]
  | .keys _ => rfl
  | .values _ => rfl

theorem refersToFirst_of_rewritesHashIn
    {union union' : DocUnion} :
    RewritesHashIn union union' → refersToFirst union = refersToFirst union'
  | .kept before after inside =>
      refersToFirst_append_cons (refersTo_of_rewritesHash inside) before after
  | .merged before after inside => by
      rw [refersToFirst_ofList]
      exact refersToFirst_append_cons (refersTo_of_rewritesHash inside) before after

end

end Classes

end DocType

namespace DocUnion

/-- Every alternative has a counterpart on the other side. -/
structure Corresponds (Related : DocType → DocType → Prop) (union union' : DocUnion) : Prop where
  forth : ∀ type ∈ union, ∃ type' ∈ union', Related type type'
  back : ∀ type' ∈ union', ∃ type ∈ union, Related type type'

namespace Corresponds

variable {Related : DocType → DocType → Prop} {union union' other other' : DocUnion}

theorem flip
    (corresponds : Corresponds Related union union') :
    Corresponds (Function.swap Related) union' union :=
  ⟨corresponds.back, corresponds.forth⟩

theorem eq_nil
    (corresponds : Corresponds Related [] union) :
    union = [] := by
  refine List.eq_nil_iff_forall_not_mem.mpr fun type member => ?_
  obtain ⟨_, ⟨⟩, -⟩ := corresponds.back type member

/-- Only the alternatives matter, and not their places. -/
theorem congr
    (corresponds : Corresponds Related union union')
    (sameLeft : ∀ type, type ∈ union ↔ type ∈ other)
    (sameRight : ∀ type, type ∈ union' ↔ type ∈ other') :
    Corresponds Related other other' := by
  constructor
  · intro type member
    obtain ⟨type', member', related⟩ := corresponds.forth type ((sameLeft type).mpr member)
    exact ⟨type', (sameRight type').mp member', related⟩
  · intro type' member'
    obtain ⟨type, member, related⟩ := corresponds.back type' ((sameRight type').mpr member')
    exact ⟨type, (sameLeft type).mp member, related⟩

theorem append
    (first : Corresponds Related union union')
    (second : Corresponds Related other other') :
    Corresponds Related (union ++ other) (union' ++ other') := by
  constructor
  · intro type member
    rcases List.mem_append.mp member with inFirst | inSecond
    · obtain ⟨type', member', related⟩ := first.forth type inFirst
      exact ⟨type', List.mem_append_left _ member', related⟩
    · obtain ⟨type', member', related⟩ := second.forth type inSecond
      exact ⟨type', List.mem_append_right _ member', related⟩
  · intro type' member'
    rcases List.mem_append.mp member' with inFirst | inSecond
    · obtain ⟨type, member, related⟩ := first.back type' inFirst
      exact ⟨type, List.mem_append_left _ member, related⟩
    · obtain ⟨type, member, related⟩ := second.back type' inSecond
      exact ⟨type, List.mem_append_right _ member, related⟩

theorem flatten
    {unions unions' : List DocUnion}
    (correspond : List.Forall₂ (Corresponds Related) unions unions') :
    Corresponds Related unions.flatten unions'.flatten := by
  induction correspond with
  | nil =>
      exact ⟨nofun, nofun⟩
  | cons first _ inductionHypothesis =>
      exact first.append inductionHypothesis

/-- Parameters that correspond are joined to unions that correspond. -/
theorem join
    {unions unions' : List DocUnion}
    (correspond : List.Forall₂ (Corresponds Related) unions unions') :
    Corresponds Related (DocUnion.join unions) (DocUnion.join unions') :=
  (flatten correspond).congr (fun _ => mem_ofList.symm) fun _ => mem_ofList.symm

/-- A tag that stands on one side stands on the other, if it is read off the name. -/
theorem any_eq
    (corresponds : Corresponds Related union union')
    {test : DocType → Bool}
    (sameTest : ∀ type type', Related type type' → test type = test type') :
    union.any test = union'.any test := by
  rw [Bool.eq_iff_iff, List.any_eq_true, List.any_eq_true]
  constructor
  · rintro ⟨type, member, holds⟩
    obtain ⟨type', member', related⟩ := corresponds.forth type member
    exact ⟨type', member', sameTest type type' related ▸ holds⟩
  · rintro ⟨type', member', holds⟩
    obtain ⟨type, member, related⟩ := corresponds.back type' member'
    exact ⟨type, member, sameTest type type' related ▸ holds⟩

end Corresponds

end DocUnion

namespace DocType

open DocUnion (Corresponds)

/-- Two alternatives that a comparison treats alike, if it treats their parameters alike. -/
structure Resembles (Related : DocType → DocType → Prop) (type type' : DocType) : Prop where
  name : type.name = type'.name
  nullable : type.nullable = type'.nullable
  refersTo : type.refersTo = type'.refersTo
  isMeta : type.isMeta = type'.isMeta
  isParameterized : type.isParameterized = type'.isParameterized
  isKeyedContainer : type.isKeyedContainer = type'.isKeyedContainer
  keyType : Corresponds Related type.keyType type'.keyType
  elementType : Corresponds Related type.elementType type'.elementType

/-- Related alternatives resemble each other, and so do the alternatives of their parameters. -/
def IsResemblance (Related : DocType → DocType → Prop) : Prop :=
  ∀ type type', Related type type' → type.Resembles Related type'

theorem IsResemblance.flip
    {Related : DocType → DocType → Prop}
    (isResemblance : IsResemblance Related) :
    IsResemblance (Function.swap Related) := by
  intro type' type related
  have resembles := isResemblance type type' related
  exact ⟨resembles.name.symm, resembles.nullable.symm, resembles.refersTo.symm,
    resembles.isMeta.symm, resembles.isParameterized.symm, resembles.isKeyedContainer.symm,
    resembles.keyType.flip, resembles.elementType.flip⟩

section Parameters

variable {Related : DocType → DocType → Prop} {type type' : DocType}

theorem isEmpty_eq_of_forall₂
    {unions unions' : List DocUnion}
    (correspond : List.Forall₂ (Corresponds Related) unions unions') :
    unions.isEmpty = unions'.isEmpty := by
  cases correspond <;> rfl

/-- Parameters that correspond have element types that correspond. -/
theorem corresponds_elementType
    (name : type.name = type'.name)
    (ordered : List.Forall₂ (Corresponds Related) type.ordered type'.ordered)
    (values : List.Forall₂ (Corresponds Related) type.values type'.values) :
    Corresponds Related type.elementType type'.elementType := by
  unfold elementType
  rw [isEmpty_eq_of_forall₂ values, name]
  split
  · exact .join values
  · generalize type.ordered = written, type'.ordered = written' at ordered
    cases keyedContainers.contains type'.name with
    | false =>
        exact .join ordered
    | true =>
        -- Only a list of two parameters holds a key and a value.
        rcases ordered with _ | ⟨key, _ | ⟨value, _ | ⟨third, others⟩⟩⟩
        · exact .join .nil
        · exact .join (.cons key .nil)
        · exact value
        · exact .join (.cons key (.cons value (.cons third others)))

theorem corresponds_keyType
    (name : type.name = type'.name)
    (ordered : List.Forall₂ (Corresponds Related) type.ordered type'.ordered)
    (keys : List.Forall₂ (Corresponds Related) type.keys type'.keys) :
    Corresponds Related type.keyType type'.keyType := by
  have nothing : Corresponds Related [] [] := ⟨nofun, nofun⟩
  unfold keyType
  rw [isEmpty_eq_of_forall₂ keys, name]
  split
  · exact .join keys
  · generalize type.ordered = written, type'.ordered = written' at ordered
    cases keyedContainers.contains type'.name with
    | false =>
        exact nothing
    | true =>
        rcases ordered with _ | ⟨key, _ | ⟨value, _ | ⟨third, others⟩⟩⟩
        · exact nothing
        · exact nothing
        · exact key
        · exact nothing

/-- Alternatives resemble each other if they differ in corresponding parameters alone. -/
theorem resembles_of_parameters
    (name : type.name = type'.name)
    (nullable : type.nullable = type'.nullable)
    (refersTo : type.refersTo = type'.refersTo)
    (ordered : List.Forall₂ (Corresponds Related) type.ordered type'.ordered)
    (keys : List.Forall₂ (Corresponds Related) type.keys type'.keys)
    (values : List.Forall₂ (Corresponds Related) type.values type'.values) :
    type.Resembles Related type' where
  name := name
  nullable := nullable
  refersTo := refersTo
  isMeta := by
    simp only [isMeta, name, ordered.length_eq]
  isParameterized := by
    simp only [isParameterized, isEmpty_eq_of_forall₂ ordered, isEmpty_eq_of_forall₂ keys,
      isEmpty_eq_of_forall₂ values]
  isKeyedContainer := by
    simp only [isKeyedContainer, name, isEmpty_eq_of_forall₂ values]
  keyType := corresponds_keyType name ordered keys
  elementType := corresponds_elementType name ordered values

end Parameters

section Rewriting

open Relation (ReflGen)

variable {type type' : DocType} {union union' : DocUnion}

theorem corresponds_self
    (union : DocUnion) :
    Corresponds (ReflGen RewritesHash) union union :=
  ⟨fun type member => ⟨type, member, .refl⟩, fun type member => ⟨type, member, .refl⟩⟩

theorem forall₂_corresponds_self
    (unions : List DocUnion) :
    List.Forall₂ (Corresponds (ReflGen RewritesHash)) unions unions :=
  List.forall₂_same.mpr fun union _ => corresponds_self union

theorem forall₂_corresponds_append_cons
    {parameter parameter' : DocUnion}
    (corresponds : Corresponds (ReflGen RewritesHash) parameter parameter')
    (front back : List DocUnion) :
    List.Forall₂ (Corresponds (ReflGen RewritesHash)) (front ++ parameter :: back)
      (front ++ parameter' :: back) :=
  List.rel_append (forall₂_corresponds_self front) (.cons corresponds (forall₂_corresponds_self back))

/-- All alternatives but one are as before. -/
theorem RewritesHashIn.corresponds
    (rewrites : RewritesHashIn union union') :
    Corresponds (ReflGen RewritesHash) union union' := by
  have inMiddle {type type' : DocType} (before after : List DocType)
      (inside : RewritesHash type type') : Corresponds (ReflGen RewritesHash)
        (before ++ type :: after) (before ++ type' :: after) := by
    have rewritten : Corresponds (ReflGen RewritesHash) [type] [type'] := by
      constructor
      · exact List.forall_mem_singleton.mpr ⟨type', List.mem_singleton_self _, .single inside⟩
      · exact List.forall_mem_singleton.mpr ⟨type, List.mem_singleton_self _, .single inside⟩
    exact (corresponds_self before).append (rewritten.append (corresponds_self after))
  cases rewrites with
  | kept before after inside =>
      exact inMiddle before after inside
  | merged before after inside =>
      exact (inMiddle before after inside).congr (fun _ => .rfl) fun _ => DocUnion.mem_ofList.symm

/-- A single parameter is joined to its own alternatives. -/
theorem mem_join_singleton
    {type : DocType}
    (union : DocUnion) :
    type ∈ union ↔ type ∈ DocUnion.join [union] := by
  simp [DocUnion.join]

/-- Rewriting a hash keeps all that a comparison asks for. -/
theorem isResemblance_rewritesHash :
    IsResemblance (ReflGen RewritesHash) := by
  intro type type' related
  cases related with
  | refl =>
      exact resembles_of_parameters rfl rfl rfl (forall₂_corresponds_self _)
        (forall₂_corresponds_self _) (forall₂_corresponds_self _)
  | single rewrites =>
      have sameClass := refersTo_of_rewritesHash rewrites
      cases rewrites with
      | hash key value nullable =>
          have keys := (corresponds_self key).congr (fun _ => .rfl) fun _ => mem_join_singleton key
          have values :=
            (corresponds_self value).congr (fun _ => .rfl) fun _ => mem_join_singleton value
          exact ⟨rfl, rfl, rfl, rfl, rfl, rfl, keys, values⟩
      | ordered inside =>
          exact resembles_of_parameters rfl rfl sameClass
            (forall₂_corresponds_append_cons inside.corresponds _ _)
            (forall₂_corresponds_self _) (forall₂_corresponds_self _)
      | keys inside =>
          exact resembles_of_parameters rfl rfl sameClass (forall₂_corresponds_self _)
            (forall₂_corresponds_append_cons inside.corresponds _ _) (forall₂_corresponds_self _)
      | values inside =>
          exact resembles_of_parameters rfl rfl sameClass (forall₂_corresponds_self _)
            (forall₂_corresponds_self _)
            (forall₂_corresponds_append_cons inside.corresponds _ _)

end Rewriting

end DocType

namespace DocUnion

/-- What a placeholder stands for does not depend on the notation of the receiver. -/
theorem ofList_genericValue_hash
    (key value : DocUnion)
    (nullable : Bool)
    (type : DocType) :
    ofList (genericValue (.angleHash key value nullable) type) =
      ofList (genericValue (.braceHash key value nullable) type) := by
  have sameParameter (parameter : DocUnion) : ofList parameter = ofList (join [parameter]) := by
    rw [join, List.flatten_singleton, ofList_of_nodup nodup_ofList]
  have sameKey : ofList (DocType.angleHash key value nullable).keyType =
      ofList (DocType.braceHash key value nullable).keyType :=
    sameParameter key
  have sameElement : ofList (DocType.angleHash key value nullable).elementType =
      ofList (DocType.braceHash key value nullable).elementType :=
    sameParameter value
  unfold genericValue
  split
  · split
    · exact sameKey
    · exact sameElement
  · exact sameElement

theorem resolveGenerics_hash
    (key value : DocUnion)
    (nullable : Bool)
    (union : DocUnion) :
    union.resolveGenerics (.angleHash key value nullable) =
      union.resolveGenerics (.braceHash key value nullable) := by
  unfold resolveGenerics
  split
  · refine substitute_congr (fun type => ?_) union
    split
    · exact congrArg some (ofList_genericValue_hash key value nullable type)
    · rfl
  · rfl

end DocUnion

namespace Index

open DocType (IsResemblance)
open DocUnion (Corresponds)

section Comparing

variable {index : Index} {context : String} {Related : DocType → DocType → Prop}
  {expected expected' actual actual' : DocType}

theorem tagsFit?_of_resembles
    (resemblesExpected : expected.Resembles Related expected')
    (resemblesActual : actual.Resembles Related actual')
    (acceptsNil : Bool) :
    index.tagsFit? acceptsNil expected actual = index.tagsFit? acceptsNil expected' actual' := by
  simp only [tagsFit?, respondsTo, DocType.duckMember?, DocType.isDuck, DocType.isSelf,
    DocType.isGeneric, DocType.isNil, DocType.isBoolean, resemblesExpected.name,
    resemblesActual.name, resemblesActual.refersTo, resemblesActual.isMeta]
  rfl

variable {fits : DocUnion → DocUnion → Bool}

/-- Alternatives fit like others that they resemble, if the comparison of parameters agrees. -/
theorem alternativeFits_of_resembles
    (resemblesExpected : expected.Resembles Related expected')
    (resemblesActual : actual.Resembles Related actual')
    (acceptsNil : Bool)
    (keys : fits expected.keyType actual.keyType = true →
      fits expected'.keyType actual'.keyType = true)
    (elements : fits expected.elementType actual.elementType = true →
      fits expected'.elementType actual'.elementType = true)
    (fit : index.alternativeFits context acceptsNil fits expected actual = true) :
    index.alternativeFits context acceptsNil fits expected' actual' = true := by
  rw [alternativeFits_eq] at fit ⊢
  rw [tagsFit?_of_resembles resemblesExpected resemblesActual] at fit
  cases decided : index.tagsFit? acceptsNil expected' actual' with
  | some outcome =>
      rwa [decided] at fit
  | none =>
      rw [decided] at fit
      simp only [Option.getD_none, classesFit, parametersFit, resemblesExpected.name,
        resemblesActual.name, resemblesExpected.isParameterized, resemblesActual.isParameterized,
        resemblesExpected.isKeyedContainer, resemblesActual.isKeyedContainer] at fit ⊢
      split at fit
      · split_ifs at fit ⊢
        · rfl
        · rw [Bool.and_eq_true] at fit ⊢
          exact ⟨keys fit.1, elements fit.2⟩
        · exact elements fit
      · rfl

end Comparing

section Unions

variable {index : Index} {context : String} {Related : DocType → DocType → Prop}
  {expected expected' actual actual' : DocUnion}

/-- What is accepted is accepted in types that resemble the given ones. -/
theorem isCompatible_of_corresponds
    (isResemblance : IsResemblance Related)
    (sameExpected : Corresponds Related expected expected')
    (sameActual : Corresponds Related actual actual')
    (fit : index.isCompatible expected actual context = true) :
    index.isCompatible expected' actual' context = true := by
  induction depth : DocType.depthOfUnion expected using Nat.strongRecOn
    generalizing expected expected' actual actual' with
  | _ depth inductionHypothesis =>
      have sameNil : expected.isNullable = expected'.isNullable :=
        sameExpected.any_eq fun type type' related => by
          have resembles := isResemblance type type' related
          simp only [DocType.isNil, resembles.name, resembles.nullable]
      have sameRoot : acceptsAll expected = acceptsAll expected' :=
        sameExpected.any_eq fun type type' related => by
          rw [(isResemblance type type' related).name]
      rw [isCompatible_iff] at fit ⊢
      rcases fit with rfl | accepts | fit
      · exact .inl sameExpected.eq_nil
      · exact .inr (.inl (sameRoot ▸ accepts))
      · refine .inr (.inr fun a' isActual' => ?_)
        obtain ⟨a, isActual, relatedActual⟩ := sameActual.back a' isActual'
        obtain ⟨e, isExpected, fits⟩ := fit a isActual
        obtain ⟨e', isExpected', relatedExpected⟩ := sameExpected.forth e isExpected
        have resemblesExpected := isResemblance e e' relatedExpected
        have resemblesActual := isResemblance a a' relatedActual
        have deeper := DocType.depth_le_of_mem isExpected
        have keys := e.depthOfUnion_keyType_lt
        have elements := e.depthOfUnion_elementType_lt
        rw [sameNil] at fits
        refine ⟨e', isExpected', alternativeFits_of_resembles resemblesExpected resemblesActual
          _ ?_ ?_ fits⟩
        · exact fun fit => inductionHypothesis _ (by omega) resemblesExpected.keyType
            resemblesActual.keyType fit rfl
        · exact fun fit => inductionHypothesis _ (by omega) resemblesExpected.elementType
            resemblesActual.elementType fit rfl

theorem isCompatible_eq_of_corresponds
    (isResemblance : IsResemblance Related)
    (sameExpected : Corresponds Related expected expected')
    (sameActual : Corresponds Related actual actual') :
    index.isCompatible expected actual context = index.isCompatible expected' actual' context := by
  rw [Bool.eq_iff_iff]
  constructor
  · exact isCompatible_of_corresponds isResemblance sameExpected sameActual
  · exact isCompatible_of_corresponds isResemblance.flip sameExpected.flip sameActual.flip

end Unions

section Rewriting

open DocType (RewritesHashIn isResemblance_rewritesHash)
open Relation (ReflTransGen)

variable {expected expected' actual actual' : DocUnion}

theorem isCompatible_of_rewritesHash_expected
    (index : Index)
    (context : String)
    (actual : DocUnion)
    (rewrites : ReflTransGen RewritesHashIn expected expected') :
    index.isCompatible expected actual context = index.isCompatible expected' actual context := by
  induction rewrites with
  | refl =>
      rfl
  | tail _ rewrites inductionHypothesis =>
      exact inductionHypothesis.trans (isCompatible_eq_of_corresponds isResemblance_rewritesHash
        rewrites.corresponds (DocType.corresponds_self actual))

theorem isCompatible_of_rewritesHash_actual
    (index : Index)
    (context : String)
    (expected : DocUnion)
    (rewrites : ReflTransGen RewritesHashIn actual actual') :
    index.isCompatible expected actual context = index.isCompatible expected actual' context := by
  induction rewrites with
  | refl =>
      rfl
  | tail _ rewrites inductionHypothesis =>
      exact inductionHypothesis.trans (isCompatible_eq_of_corresponds isResemblance_rewritesHash
        (DocType.corresponds_self expected) rewrites.corresponds)

/--
Both notations of hashes mean the same: any number of them may be rewritten, at every depth of both
types that are compared, and the placeholders of a type are filled alike from both.
-/
theorem isCompatible_and_resolveGenerics_hash
    (index : Index)
    (context : String)
    (rewritesExpected : ReflTransGen RewritesHashIn expected expected')
    (rewritesActual : ReflTransGen RewritesHashIn actual actual')
    (type key value : DocUnion)
    (nullable : Bool) :
    index.isCompatible expected' actual' context = index.isCompatible expected actual context ∧
      type.resolveGenerics (.angleHash key value nullable) =
        type.resolveGenerics (.braceHash key value nullable) := by
  refine ⟨?_, DocUnion.resolveGenerics_hash key value nullable type⟩
  rw [← isCompatible_of_rewritesHash_actual index context expected' rewritesActual,
    ← isCompatible_of_rewritesHash_expected index context actual rewritesExpected]

end Rewriting

namespace NestedHash

open DocType (RewritesHashIn angleHash braceHash)
open Relation (ReflTransGen)

/-- An array of hashes that hold hashes, in the notations of the outer and the inner ones. -/
def nested (outer inner : DocUnion → DocUnion → Bool → DocType) : DocUnion :=
  [.withOrdered "Array"
    [[outer (.named "Symbol") [inner (.named "String") (.named "Integer") true] false]]]

theorem rewritesHashIn_nested :
    ReflTransGen RewritesHashIn (nested angleHash angleHash) (nested braceHash braceHash) := by
  have outer : RewritesHashIn (nested angleHash angleHash) (nested braceHash angleHash) :=
    .kept [] [] (@DocType.RewritesHash.ordered "Array" [] [] [] [] _ _ false
      (.kept [] [] (.hash _ _ _)))
  have inner : RewritesHashIn (nested braceHash angleHash) (nested braceHash braceHash) :=
    .kept [] [] (@DocType.RewritesHash.ordered "Array" [] [] [] [] _ _ false
      (.kept [] [] (@DocType.RewritesHash.values "Hash" [] [] [] _ _ _ false
        (.kept [] [] (.hash _ _ _)))))
  exact .tail (.single outer) inner

/-- Each notation fits the other, and both give their values to the same placeholders. -/
theorem isCompatible_nested :
    ReflTransGen RewritesHashIn (nested angleHash angleHash) (nested braceHash braceHash) ∧
      (ofPins []).isCompatible (nested angleHash angleHash) (nested braceHash braceHash) "" = true ∧
      (ofPins []).isCompatible (nested braceHash braceHash) (nested angleHash angleHash) "" = true ∧
      DocUnion.resolveGenerics [.withOrdered "generic" [.named "V"]]
        (angleHash (.named "Symbol") (.named "String") false) = .named "String" := by
  have rewrites := rewritesHashIn_nested
  have angleExpected := isCompatible_and_resolveGenerics_hash (ofPins []) ""
    (.refl : ReflTransGen RewritesHashIn (nested angleHash angleHash) _) rewrites
    [.withOrdered "generic" [.named "V"]] (.named "Symbol") (.named "String") false
  have braceExpected := isCompatible_and_resolveGenerics_hash (ofPins []) "" rewrites
    (.refl : ReflTransGen RewritesHashIn (nested angleHash angleHash) _) [] [] [] false
  have itself := (ofPins []).isCompatible_self (nested angleHash angleHash) ""
  have filled : DocUnion.resolveGenerics [.withOrdered "generic" [.named "V"]]
      (braceHash (.named "Symbol") (.named "String") false) = .named "String" := by
    decide
  exact ⟨rewrites, angleExpected.1.trans itself, braceExpected.1.trans itself,
    angleExpected.2.trans filled⟩

end NestedHash

end Index

end TagCheck
