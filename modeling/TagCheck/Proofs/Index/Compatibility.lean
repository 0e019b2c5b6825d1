import TagCheck.Index.Compatibility
import TagCheck.Proofs.DocType.Depth

namespace TagCheck

/-!
# The laws of compatibility

Two alternatives are compared by the tags that have a meaning of their own, then by the classes that
their names refer to, and at last by their parameters.  Parameters are less deeply nested than the
alternative around them, so that the limit of the comparison is never met, and compatibility goes
down into parameters without end.

It is reflexive, and it takes a union apart on either side.
-/

theorem DocUnion.mem_union
    {first second : DocUnion}
    {type : DocType} :
    type ∈ first.union second ↔ type ∈ first ∨ type ∈ second := by
  simp [union, join]

namespace DocType

section Depth

variable {limit : Nat}

theorem depthOfUnion_le_iff
    {union : DocUnion} :
    depthOfUnion union ≤ limit ↔ ∀ type ∈ union, type.depth ≤ limit := by
  induction union with
  | nil =>
      simp [depthOfUnion]
  | cons type rest inductionHypothesis =>
      rw [depthOfUnion, Nat.max_le, inductionHypothesis, List.forall_mem_cons]

theorem depthOfParameters_le_iff
    {parameters : List DocUnion} :
    depthOfParameters parameters ≤ limit ↔
      ∀ parameter ∈ parameters, depthOfUnion parameter ≤ limit := by
  induction parameters with
  | nil =>
      simp [depthOfParameters]
  | cons parameter rest inductionHypothesis =>
      rw [depthOfParameters, Nat.max_le, inductionHypothesis, List.forall_mem_cons]

/-- What stands in a parameter is less deeply nested than the alternative around it. -/
theorem depth_lt_of_mem_parameter
    {type inner : DocType}
    {parameter : DocUnion}
    (isParameter : parameter ∈ type.ordered ++ type.keys ++ type.values)
    (member : inner ∈ parameter) :
    inner.depth < type.depth := by
  obtain ⟨name, ordered, keys, values, nullable⟩ := type
  have inside : ∀ parameters : List DocUnion, parameter ∈ parameters →
      inner.depth ≤ depthOfParameters parameters := by
    intro parameters isOne
    have ofUnion := depthOfParameters_le_iff.mp (Nat.le_refl _) parameter isOne
    exact depthOfUnion_le_iff.mp ofUnion inner member
  have ofOne : inner.depth ≤ depthOfParameters ordered ∨ inner.depth ≤ depthOfParameters keys ∨
      inner.depth ≤ depthOfParameters values := by
    simp only [List.mem_append] at isParameter
    rcases isParameter with (isOrdered | isKey) | isValue
    · exact .inl (inside ordered isOrdered)
    · exact .inr (.inl (inside keys isKey))
    · exact .inr (.inr (inside values isValue))
  rw [depth]
  omega

theorem depthOfUnion_lt_of_forall_mem
    {union : DocUnion}
    {type : DocType}
    (inside : ∀ inner ∈ union,
      ∃ parameter ∈ type.ordered ++ type.keys ++ type.values, inner ∈ parameter) :
    depthOfUnion union < type.depth := by
  have positive : 0 < type.depth := by
    cases type
    rw [depth]
    omega
  refine Nat.lt_of_le_pred positive (depthOfUnion_le_iff.mpr ?_)
  intro inner member
  obtain ⟨parameter, isParameter, isInside⟩ := inside inner member
  exact Nat.le_pred_of_lt (depth_lt_of_mem_parameter isParameter isInside)

theorem depthOfUnion_elementType_lt
    (type : DocType) :
    depthOfUnion type.elementType < type.depth :=
  depthOfUnion_lt_of_forall_mem fun _ => exists_of_mem_elementType

theorem depthOfUnion_keyType_lt
    (type : DocType) :
    depthOfUnion type.keyType < type.depth :=
  depthOfUnion_lt_of_forall_mem fun _ => exists_of_mem_keyType

theorem depth_le_of_mem
    {union : DocUnion}
    {type : DocType}
    (member : type ∈ union) :
    type.depth ≤ depthOfUnion union :=
  depthOfUnion_le_iff.mp (Nat.le_refl _) type member

end Depth

theorem isDuck_eq_isSome_duckMember?
    (type : DocType) :
    type.isDuck = type.duckMember?.isSome := by
  unfold isDuck duckMember?
  split
  · next isDuck =>
      simp [isDuck]
  · next notDuck =>
      cases named : type.name.toList with
      | nil =>
          rfl
      | cons first rest =>
          have isOther : first ≠ '#' := by
            rintro rfl
            exact notDuck rest named
          simpa using isOther

end DocType

namespace Index

variable {index : Index} {context : String}

section Alternatives

/--
What tags with a meaning of their own decide about two alternatives; none if both are names of
classes.
-/
def tagsFit? (index : Index) (acceptsNil : Bool) (expected actual : DocType) : Option Bool :=
  match expected.duckMember? with
  | some member => some (index.respondsTo actual member)
  | none =>
      if actual.isDuck || expected.isSelf || expected.isGeneric || actual.isGeneric then
        some true
      else if actual.isNil then
        some (expected.isNil || acceptsNil)
      else if expected.isBoolean then
        some (["Boolean", "TrueClass", "FalseClass", "true", "false"].contains actual.name)
      else if actual.isBoolean then
        some (["TrueClass", "FalseClass"].contains expected.name)
      else
        none

/-- The parameters of two alternatives fit, unless one of them is written without parameters. -/
def parametersFit (fits : DocUnion → DocUnion → Bool) (expected actual : DocType) : Bool :=
  if !expected.isParameterized || !actual.isParameterized then
    true
  else if expected.isKeyedContainer || actual.isKeyedContainer then
    fits expected.keyType actual.keyType && fits expected.elementType actual.elementType
  else
    fits expected.elementType actual.elementType

/-- One class is the other or an ancestor of it, and their parameters fit; unknown names fit. -/
def classesFit (index : Index) (context : String) (fits : DocUnion → DocUnion → Bool)
    (expected actual : DocType) : Bool :=
  match index.qualifyClass? expected.name context, index.qualifyClass? actual.name context with
  | some expectedPath, some actualPath =>
      if expectedPath ≠ actualPath && !(index.ancestors actualPath).contains expectedPath then
        false
      else
        parametersFit fits expected actual
  | _, _ => true

/-- Tags are compared first, and then the classes with their parameters. -/
theorem alternativeFits_eq
    (acceptsNil : Bool)
    (fits : DocUnion → DocUnion → Bool)
    (expected actual : DocType) :
    index.alternativeFits context acceptsNil fits expected actual =
      (index.tagsFit? acceptsNil expected actual).getD
        (index.classesFit context fits expected actual) := by
  unfold alternativeFits tagsFit?
  cases expected.duckMember? with
  | some member =>
      rfl
  | none =>
      dsimp only
      simp only [apply_ite (Option.getD · (index.classesFit context fits expected actual)),
        Option.getD_some, Option.getD_none]
      rfl

variable {fits fits' : DocUnion → DocUnion → Bool} {expected actual : DocType}

theorem parametersFit_mono
    (keys : fits expected.keyType actual.keyType = true →
      fits' expected.keyType actual.keyType = true)
    (elements : fits expected.elementType actual.elementType = true →
      fits' expected.elementType actual.elementType = true)
    (fit : parametersFit fits expected actual = true) :
    parametersFit fits' expected actual = true := by
  unfold parametersFit at fit ⊢
  split_ifs at fit ⊢
  · rfl
  · rw [Bool.and_eq_true] at fit ⊢
    exact ⟨keys fit.1, elements fit.2⟩
  · exact elements fit

/-- A comparison that accepts more of nil and of the parameters accepts more alternatives. -/
theorem alternativeFits_mono
    {acceptsNil acceptsNil' : Bool}
    (nil : acceptsNil = true → acceptsNil' = true)
    (keys : fits expected.keyType actual.keyType = true →
      fits' expected.keyType actual.keyType = true)
    (elements : fits expected.elementType actual.elementType = true →
      fits' expected.elementType actual.elementType = true)
    (fit : index.alternativeFits context acceptsNil fits expected actual = true) :
    index.alternativeFits context acceptsNil' fits' expected actual = true := by
  rw [alternativeFits_eq] at fit ⊢
  have classes : index.classesFit context fits expected actual = true →
      index.classesFit context fits' expected actual = true := by
    unfold classesFit
    intro classesFit
    split at classesFit
    · split at classesFit
      · cases classesFit
      · next expectedPath actualPath isExpected isActual notApart =>
          simp only [notApart]
          exact parametersFit_mono keys elements classesFit
    · rfl
  unfold tagsFit? at fit ⊢
  cases asksFor : expected.duckMember? with
  | some member =>
      rwa [asksFor] at fit
  | none =>
      rw [asksFor] at fit
      dsimp only at fit ⊢
      split_ifs at fit ⊢
      · rfl
      · rw [Option.getD_some, Bool.or_eq_true] at fit ⊢
        exact fit.imp_right nil
      · exact fit
      · exact fit
      · exact classes fit

/-- No alternative differs from itself by its tag. -/
theorem tagsFit?_self
    (acceptsNil : Bool)
    (type : DocType) :
    (index.tagsFit? acceptsNil type type).getD true = true := by
  unfold tagsFit?
  cases asksFor : type.duckMember? with
  | some member =>
      have isDuck : type.isDuck = true := by
        rw [type.isDuck_eq_isSome_duckMember?, asksFor]
        rfl
      simp [respondsTo, isDuck]
  | none =>
      dsimp only
      split_ifs with isOpen isNil isBoolean
      · rfl
      · simp [isNil]
      · have named : type.name = "Boolean" := of_decide_eq_true isBoolean
        simp [named]
      · rfl

/-- An alternative fits itself if its parameters do. -/
theorem alternativeFits_self
    {type : DocType}
    (acceptsNil : Bool)
    (keys : fits type.keyType type.keyType = true)
    (elements : fits type.elementType type.elementType = true) :
    index.alternativeFits context acceptsNil fits type type = true := by
  have classes : index.classesFit context fits type type = true := by
    unfold classesFit
    split
    · next expectedPath actualPath isExpected isActual =>
        have same : expectedPath = actualPath := by
          rw [← Option.some_inj, ← isExpected, isActual]
        simp [same, parametersFit, keys, elements]
    · rfl
  have tags := index.tagsFit?_self acceptsNil type
  rw [alternativeFits_eq]
  cases decided : index.tagsFit? acceptsNil type type with
  | none =>
      exact classes
  | some outcome =>
      rwa [decided] at tags

end Alternatives

section Unions

variable {expected actual : DocUnion}

theorem isCompatibleWithin_succ_iff
    {limit : Nat} :
    index.isCompatibleWithin context (limit + 1) expected actual = true ↔
      expected = [] ∨ acceptsAll expected = true ∨
        ∀ a ∈ actual, ∃ e ∈ expected, index.alternativeFits context expected.isNullable
          (index.isCompatibleWithin context limit) e a = true := by
  simp only [isCompatibleWithin, DocUnion.isUndefined, Bool.or_eq_true, List.isEmpty_iff,
    List.all_eq_true, List.any_eq_true, or_assoc]
  refine or_congr_right ⟨?_, fun accepts => .inr accepts⟩
  rintro (rfl | accepts)
  · exact .inr nofun
  · exact accepts

/-- Two limits that are greater than the depth of the expected type do not differ. -/
theorem isCompatibleWithin_of_depth_lt
    {limit further : Nat}
    (enough : DocType.depthOfUnion expected < limit)
    (enoughFurther : DocType.depthOfUnion expected < further)
    (fit : index.isCompatibleWithin context limit expected actual = true) :
    index.isCompatibleWithin context further expected actual = true := by
  induction limit generalizing further expected actual with
  | zero =>
      exact absurd enough (Nat.not_lt_zero _)
  | succ limit inductionHypothesis =>
      obtain ⟨further, rfl⟩ := Nat.exists_eq_succ_of_ne_zero (Nat.ne_zero_of_lt enoughFurther)
      rw [isCompatibleWithin_succ_iff] at fit ⊢
      refine fit.imp_right (Or.imp_right ?_)
      intro allFit a member
      obtain ⟨e, isExpected, fits⟩ := allFit a member
      have deeper := DocType.depth_le_of_mem isExpected
      have keys := e.depthOfUnion_keyType_lt
      have elements := e.depthOfUnion_elementType_lt
      refine ⟨e, isExpected, alternativeFits_mono id ?_ ?_ fits⟩
      · exact inductionHypothesis (by omega) (by omega)
      · exact inductionHypothesis (by omega) (by omega)

/-- Compatibility compares alternatives, and goes down into their parameters without a limit. -/
theorem isCompatible_iff :
    index.isCompatible expected actual context = true ↔
      expected = [] ∨ acceptsAll expected = true ∨
        ∀ a ∈ actual, ∃ e ∈ expected, index.alternativeFits context expected.isNullable
          (fun e a => index.isCompatible e a context) e a = true := by
  rw [isCompatible, isCompatibleWithin_succ_iff]
  refine or_congr_right (or_congr_right ?_)
  refine forall₂_congr fun a _ => exists_congr fun e => and_congr_right fun isExpected => ?_
  have deeper := DocType.depth_le_of_mem isExpected
  have keys := e.depthOfUnion_keyType_lt
  have elements := e.depthOfUnion_elementType_lt
  unfold isCompatible
  constructor
  · refine alternativeFits_mono id ?_ ?_
    · exact isCompatibleWithin_of_depth_lt (by omega) (by omega)
    · exact isCompatibleWithin_of_depth_lt (by omega) (by omega)
  · refine alternativeFits_mono id ?_ ?_
    · exact isCompatibleWithin_of_depth_lt (by omega) (by omega)
    · exact isCompatibleWithin_of_depth_lt (by omega) (by omega)

end Unions

/-- Every type is compatible with itself. -/
theorem isCompatible_self
    (index : Index)
    (type : DocUnion)
    (context : String) :
    index.isCompatible type type context = true := by
  induction depth : DocType.depthOfUnion type using Nat.strongRecOn generalizing type with
  | _ depth inductionHypothesis =>
      refine isCompatible_iff.mpr (.inr (.inr ?_))
      intro a member
      have deeper := DocType.depth_le_of_mem member
      have keys := a.depthOfUnion_keyType_lt
      have elements := a.depthOfUnion_elementType_lt
      refine ⟨a, member, alternativeFits_self _ ?_ ?_⟩
      · exact inductionHypothesis _ (by omega) a.keyType rfl
      · exact inductionHypothesis _ (by omega) a.elementType rfl

section Alternatives

variable {expected more : DocUnion}

theorem acceptsAll_of_subset
    (subset : expected ⊆ more)
    (accepts : acceptsAll expected = true) :
    acceptsAll more = true := by
  obtain ⟨type, member, isRoot⟩ := List.any_eq_true.mp accepts
  exact List.any_eq_true.mpr ⟨type, subset member, isRoot⟩

theorem isNullable_of_subset
    (subset : expected ⊆ more)
    (nullable : expected.isNullable = true) :
    more.isNullable = true := by
  obtain ⟨type, member, admitsNil⟩ := List.any_eq_true.mp nullable
  exact List.any_eq_true.mpr ⟨type, subset member, admitsNil⟩

/-- A documented type with further alternatives accepts no less, and fewer actual ones no worse. -/
theorem isCompatible_of_subset
    {actual fewer : DocUnion}
    (isDefined : expected = [] → more = [])
    (subset : expected ⊆ more)
    (fewerActual : fewer ⊆ actual)
    (fit : index.isCompatible expected actual context = true) :
    index.isCompatible more fewer context = true := by
  rw [isCompatible_iff] at fit ⊢
  rcases fit with isUndefined | accepts | fit
  · exact .inl (isDefined isUndefined)
  · exact .inr (.inl (acceptsAll_of_subset subset accepts))
  · refine .inr (.inr fun a member => ?_)
    obtain ⟨e, isExpected, fits⟩ := fit a (fewerActual member)
    refine ⟨e, subset isExpected, alternativeFits_mono (isNullable_of_subset subset) ?_ ?_ fits⟩
    · exact id
    · exact id

/-- Compatibility depends neither on the order of alternatives nor on repetitions. -/
theorem isCompatible_congr
    {actual actual' : DocUnion}
    (sameExpected : ∀ type, type ∈ expected ↔ type ∈ more)
    (sameActual : ∀ type, type ∈ actual ↔ type ∈ actual') :
    index.isCompatible expected actual context = index.isCompatible more actual' context := by
  have undefined : expected = [] ↔ more = [] := by
    simp only [List.eq_nil_iff_forall_not_mem, sameExpected]
  rw [Bool.eq_iff_iff]
  constructor
  · exact isCompatible_of_subset undefined.mp (fun type => (sameExpected type).mp)
      fun type => (sameActual type).mpr
  · exact isCompatible_of_subset undefined.mpr (fun type => (sameExpected type).mpr)
      fun type => (sameActual type).mp

end Alternatives

/--
A union is accepted exactly if both of its sides are; and a documented type accepts no less when a
further alternative is documented.
-/
theorem isCompatible_union
    (index : Index)
    (expected more first second actual : DocUnion)
    (context : String) :
    (index.isCompatible expected (first.union second) context = true ↔
        index.isCompatible expected first context = true ∧
          index.isCompatible expected second context = true) ∧
      (expected.isDefined = true → index.isCompatible expected actual context = true →
        index.isCompatible (expected.union more) actual context = true) := by
  constructor
  · simp only [isCompatible_iff, DocUnion.mem_union, or_imp, forall_and, ← or_and_left]
  · intro isDefined
    refine isCompatible_of_subset ?_ ?_ (List.Subset.refl actual)
    · rintro rfl
      cases isDefined
    · intro type member
      exact DocUnion.mem_union.mpr (.inl member)

/-- Numbers are documented as `Numeric`, or as `Numeric, nil`. -/
theorem isCompatible_numeric :
    (ofPins []).isCompatible (.named "Numeric")
        ((DocUnion.named "Integer").union (.named "Float")) "" = true ∧
      (ofPins []).isCompatible ((DocUnion.named "Numeric").union (.named "nil"))
        (.named "Integer") "" = true := by
  have laws := isCompatible_union (ofPins []) (.named "Numeric") (.named "nil") (.named "Integer")
    (.named "Float") (.named "Integer") ""
  have each : (ofPins []).isCompatible (.named "Numeric") (.named "Integer") "" = true ∧
      (ofPins []).isCompatible (.named "Numeric") (.named "Float") "" = true := by
    rw [ofPins_eq_ofList]
    decide +kernel
  exact ⟨laws.1.mpr each, laws.2 rfl each.1⟩

end Index
end TagCheck
