import TagCheck.Proofs.DocType.Union
import TagCheck.Proofs.Index.AbsoluteName

namespace TagCheck

open ConstantPath (IsPlain along firstName)

namespace Index

/-!
# Qualifying twice

A qualified type bears plain paths, so qualifying it once more, in another context, searches every
path again.  It keeps the type exactly if it keeps every name in the type, at every depth.
-/

/-- The name of an alternative, once qualified, is changed by the look-up in a second context. -/
def isRenamed (index : Index) (first second : String) (type : DocType) : Bool :=
  index.qualifyTypeName second (index.qualifyTypeName first type.name) ≠
    index.qualifyTypeName first type.name

/-- What a name refers to in a first context, a second context does not see differently. -/
inductive IsSettled (index : Index) (first second name : String) : Prop
  /-- A tag that names no namespace, or nil. -/
  | tag (isTag : (DocType.named name).isNil = true ∨ (DocType.named name).isPseudo = true)
  /-- A path of declared namespaces whose first name is found nowhere before the top level. -/
  | path {path : String} (refers : index.qualify? name first = some path) (plain : IsPlain path)
      (notNil : path ≠ "nil") (declared : ∀ outer ∈ along path, index.isDeclared outer = true)
      (unshadowed : index.isShadowed second (firstName path) = false)
  /-- A name that refers to nothing in either context. -/
  | unknown (unknownFirst : index.qualify? name first = none)
      (unknownSecond : index.qualify? name second = none)

section Alternatives

variable {index : Index} {first second : String}

theorem qualifyAlternatives_eq_map
    (context : String)
    (types : List DocType) :
    index.qualifyAlternatives context types = types.map (index.qualifyAlternative context) := by
  induction types with
  | nil =>
      rfl
  | cons type rest inductionHypothesis =>
      rw [qualifyAlternatives, inductionHypothesis, List.map_cons]

/-- A union is kept by the second look-up exactly if each alternative is. -/
theorem qualifyType_eq_self_iff
    {types : List DocType} :
    index.qualifyType (index.qualifyType types first) second = index.qualifyType types first ↔
      ∀ type ∈ types, index.qualifyAlternative second (index.qualifyAlternative first type) =
        index.qualifyAlternative first type := by
  unfold qualifyType
  rw [qualifyAlternatives_eq_map, DocUnion.ofList_map_eq_iff DocUnion.nodup_ofList,
    qualifyAlternatives_eq_map]
  simp only [DocUnion.mem_ofList, List.forall_mem_map]

mutual

/-- An alternative is kept by the second look-up exactly if no name in it is changed. -/
theorem qualifyAlternative_eq_self_iff :
    ∀ type : DocType,
      index.qualifyAlternative second (index.qualifyAlternative first type) =
          index.qualifyAlternative first type ↔
        type.anyIn (index.isRenamed first second) = false
  | ⟨name, ordered, keys, values, nullable⟩ => by
      have sameOrdered := qualifyParameters_eq_self_iff ordered
      have sameKeys := qualifyParameters_eq_self_iff keys
      have sameValues := qualifyParameters_eq_self_iff values
      simp only [qualifyAlternative, DocType.mk.injEq, DocType.anyIn, Bool.or_eq_false_iff,
        sameOrdered, sameKeys, sameValues, isRenamed, decide_eq_false_iff_not, ne_eq,
        Decidable.not_not, and_true, and_assoc]

theorem qualifyAlternatives_eq_self_iff :
    ∀ types : List DocType,
      (∀ type ∈ types, index.qualifyAlternative second (index.qualifyAlternative first type) =
          index.qualifyAlternative first type) ↔
        DocType.anyInUnion (index.isRenamed first second) types = false
  | [] => by
      simp [DocType.anyInUnion]
  | type :: rest => by
      have sameType := qualifyAlternative_eq_self_iff type
      have sameRest := qualifyAlternatives_eq_self_iff rest
      rw [List.forall_mem_cons, DocType.anyInUnion, Bool.or_eq_false_iff, sameType, sameRest]

theorem qualifyParameters_eq_self_iff :
    ∀ parameters : List (List DocType),
      index.qualifyParameters second (index.qualifyParameters first parameters) =
          index.qualifyParameters first parameters ↔
        DocType.anyInParameters (index.isRenamed first second) parameters = false
  | [] => by
      simp [qualifyParameters, DocType.anyInParameters]
  | parameter :: rest => by
      have sameUnion := qualifyAlternatives_eq_self_iff parameter
      have sameRest := qualifyParameters_eq_self_iff rest
      -- The look-up takes a parameter for a union of its own.
      rw [← qualifyType_eq_self_iff] at sameUnion
      rw [DocType.anyInParameters, Bool.or_eq_false_iff, ← sameUnion, ← sameRest]
      simp only [qualifyParameters, List.cons.injEq, qualifyType]

end

end Alternatives

section Names

variable {index : Index} {first second name : String}

/-- A tag other than nil is kept as it is written, and nil in either spelling becomes its class. -/
theorem qualifyTypeName_of_tag
    (isTag : (DocType.named name).isNil = true ∨ (DocType.named name).isPseudo = true)
    (context : String) :
    index.qualifyTypeName context name =
      if (DocType.named name).isNil then "NilClass" else name := by
  unfold qualifyTypeName
  dsimp only
  split
  · rfl
  · next notNil =>
      rw [if_pos (isTag.resolve_left notNil)]

theorem qualifyTypeName_of_not_tag
    (noTag : ¬((DocType.named name).isNil = true ∨ (DocType.named name).isPseudo = true))
    (context : String) :
    index.qualifyTypeName context name = (index.qualify? name context).getD name := by
  obtain ⟨notNil, notPseudo⟩ := not_or.mp noTag
  unfold qualifyTypeName
  dsimp only
  rw [if_neg notNil, if_neg notPseudo]

/-- A name other than nil is kept if it refers to itself or to nothing. -/
theorem qualifyTypeName_eq_self
    {context : String}
    (notNil : name ≠ "nil")
    (kept : (index.qualify? name context).getD name = name) :
    index.qualifyTypeName context name = name := by
  by_cases isTag : (DocType.named name).isNil = true ∨ (DocType.named name).isPseudo = true
  · rw [qualifyTypeName_of_tag isTag]
    split
    · next isNil =>
        rcases Bool.or_eq_true_iff.mp isNil with isNil | isClass
        · exact absurd (of_decide_eq_true isNil) notNil
        · exact (of_decide_eq_true isClass).symm
    · rfl
  · rw [qualifyTypeName_of_not_tag isTag, kept]

/-- A settled name is not changed by the second look-up. -/
theorem IsSettled.isRenamed_eq_false
    {type : DocType}
    (settled : index.IsSettled first second type.name) :
    index.isRenamed first second type = false := by
  have kept : index.qualifyTypeName second (index.qualifyTypeName first type.name) =
      index.qualifyTypeName first type.name := by
    by_cases isTag : (DocType.named type.name).isNil = true ∨
        (DocType.named type.name).isPseudo = true
    · rw [qualifyTypeName_of_tag isTag first]
      split
      · rfl
      · next notNil =>
          rw [qualifyTypeName_of_tag isTag second, if_neg notNil]
    · have isName := @qualifyTypeName_of_not_tag index type.name isTag
      cases settled with
      | tag tag =>
          exact absurd tag isTag
      | @path path refers plain notNil declared unshadowed =>
          rw [isName first, refers, Option.getD_some]
          apply qualifyTypeName_eq_self notNil
          rw [qualify?_of_plain plain, qualifyRelative?_eq_self plain declared unshadowed,
            Option.getD_some]
      | unknown unknownFirst unknownSecond =>
          rw [isName first, unknownFirst, Option.getD_none, isName second, unknownSecond,
            Option.getD_none]
  rw [isRenamed, kept]
  simp

end Names

/--
Qualifying a type again, in a second context, keeps it exactly if the second look-up changes none of
its qualified names, at any depth; and it does not change a settled name.
-/
theorem qualifyType_qualifyType_eq_iff
    (index : Index)
    (type : DocUnion)
    (first second : String) :
    (index.qualifyType (index.qualifyType type first) second = index.qualifyType type first ↔
        type.contains (index.isRenamed first second) = false) ∧
      ∀ item : DocType, index.IsSettled first second item.name →
        index.isRenamed first second item = false := by
  refine ⟨?_, ?_⟩
  · rw [qualifyType_eq_self_iff, qualifyAlternatives_eq_self_iff]
    rfl
  · intro item settled
    exact settled.isRenamed_eq_false

end Index

namespace NestedNamesake

open Stub.Layout

/-- A module `Shop` with a class `Item`, and the same once more inside a module `Web`. -/
def source : Source where
  filename := "shop.rb"
  root :=
    branch .program none ⟨0, 0⟩ ⟨8, 0⟩
      [branch .moduleDefinition none ⟨0, 0⟩ ⟨2, 3⟩
        [leaf .constant (some .name) ⟨0, 7⟩ "Shop",
          branch .classDefinition none ⟨1, 2⟩ ⟨1, 17⟩
            [leaf .constant (some .name) ⟨1, 8⟩ "Item"]],
        branch .moduleDefinition none ⟨3, 0⟩ ⟨7, 3⟩
          [leaf .constant (some .name) ⟨3, 7⟩ "Web",
            branch .moduleDefinition none ⟨4, 2⟩ ⟨6, 5⟩
              [leaf .constant (some .name) ⟨4, 9⟩ "Shop",
                branch .classDefinition none ⟨5, 4⟩ ⟨5, 19⟩
                  [leaf .constant (some .name) ⟨5, 10⟩ "Item"]]]]
  isParsed := true

/-- The declarations of the source. -/
def pins : List Pin :=
  (Outline.ofSource 1 source).pins

/-- A list of items of `Shop` keeps its meaning when it is qualified again at the top level. -/
theorem qualifyType_items :
    (Index.ofPins pins).IsSettled "Shop" "" "Item" ∧
      (Index.ofPins pins).isRenamed "Shop" "" (.named "Item") = false ∧
      (Index.ofPins pins).qualifyType
          ((Index.ofPins pins).qualifyType [.withOrdered "Array" [[.named "Item"]]] "Shop") "" =
        (Index.ofPins pins).qualifyType [.withOrdered "Array" [[.named "Item"]]] "Shop" := by
  have plain : IsPlain "Shop::Item" :=
    { notEmpty := by decide
      relative := by decide
      trimmed := by decide +kernel }
  have found :
      (Index.ofPins pins).qualify? "Item" "Shop" = some "Shop::Item" ∧
      (∀ outer ∈ along "Shop::Item", (Index.ofPins pins).isDeclared outer = true) ∧
      (Index.ofPins pins).isShadowed "" (firstName "Shop::Item") = false ∧
      DocUnion.contains ((Index.ofPins pins).isRenamed "Shop" "")
        [.withOrdered "Array" [[.named "Item"]]] = false := by
    rw [Index.ofPins_eq_ofList]
    decide +kernel
  obtain ⟨refers, declared, unshadowed, keepsNames⟩ := found
  have settled : (Index.ofPins pins).IsSettled "Shop" "" "Item" :=
    .path refers plain (by decide) declared unshadowed
  have stable := Index.qualifyType_qualifyType_eq_iff (Index.ofPins pins)
    [.withOrdered "Array" [[.named "Item"]]] "Shop" ""
  exact ⟨settled, stable.2 (.named "Item") settled, stable.1.mpr keepsNames⟩

/-- Qualified in `Shop`, the name `Item` means another class when it is qualified again in `Web`. -/
theorem qualifyType_not_stable :
    ¬∀ (pins : List Pin) (type : DocUnion) (first second : String),
      (Index.ofPins pins).qualifyType ((Index.ofPins pins).qualifyType type first) second =
        (Index.ofPins pins).qualifyType type first := by
  intro allStable
  have stable := allStable pins (.named "Item") "Shop" "Web"
  have qualified :
      (Index.ofPins pins).qualifyType (.named "Item") "Shop" = .named "Shop::Item" ∧
      (Index.ofPins pins).qualifyType (.named "Shop::Item") "Web" = .named "Web::Shop::Item" := by
    rw [Index.ofPins_eq_ofList]
    decide +kernel
  obtain ⟨inShop, inWeb⟩ := qualified
  rw [inShop, inWeb] at stable
  exact absurd stable (by decide)

end NestedNamesake

end TagCheck
