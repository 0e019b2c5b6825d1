import TagCheck.DocType.Substitution
import TagCheck.Proofs.DocType.Union

namespace TagCheck

/-!
# Alternatives at every depth

Parameters are unions again, so that alternatives stand inside of alternatives.  What holds of all
unions is proved from the parameters of their alternatives, and the search at all depths finds
exactly what stands at some depth.
-/

/-- An alternative stands in a union, or in a parameter at any depth inside it. -/
inductive DocType.IsWithin (type : DocType) : DocUnion → Prop
  | alternative {union : DocUnion} (member : type ∈ union) : IsWithin type union
  | parameter {union parameter : DocUnion} {outer : DocType} (member : outer ∈ union)
      (isParameter : parameter ∈ outer.ordered ++ outer.keys ++ outer.values)
      (isWithin : IsWithin type parameter) : IsWithin type union

namespace DocType

section Parameters

theorem exists_of_mem_join
    {unions : List DocUnion}
    {type : DocType}
    (member : type ∈ DocUnion.join unions) :
    ∃ union ∈ unions, type ∈ union :=
  List.mem_flatten.mp (DocUnion.mem_ofList.mp member)

/-- The alternatives of the element type stand in the parameters. -/
theorem exists_of_mem_elementType
    {type inner : DocType}
    (member : inner ∈ type.elementType) :
    ∃ parameter ∈ type.ordered ++ type.keys ++ type.values, inner ∈ parameter := by
  unfold elementType at member
  split at member
  · obtain ⟨parameter, isValue, isInside⟩ := exists_of_mem_join member
    exact ⟨parameter, List.mem_append_right _ isValue, isInside⟩
  · split at member
    · next key value _ isPair =>
        exact ⟨value, by simp [isPair], member⟩
    · obtain ⟨parameter, isOrdered, isInside⟩ := exists_of_mem_join member
      exact ⟨parameter, List.mem_append_left _ (List.mem_append_left _ isOrdered), isInside⟩

/-- The alternatives of the key type stand in the parameters. -/
theorem exists_of_mem_keyType
    {type inner : DocType}
    (member : inner ∈ type.keyType) :
    ∃ parameter ∈ type.ordered ++ type.keys ++ type.values, inner ∈ parameter := by
  unfold keyType at member
  split at member
  · obtain ⟨parameter, isKey, isInside⟩ := exists_of_mem_join member
    exact ⟨parameter, List.mem_append_left _ (List.mem_append_right _ isKey), isInside⟩
  · split at member
    · next key value _ isPair =>
        exact ⟨key, by simp [isPair], member⟩
    · cases member

end Parameters

namespace IsWithin

variable {type outer : DocType} {inner union other : DocUnion}

/-- What stands inside of a type that is joined from parameters stands in one of them. -/
theorem of_inside
    (isWithin : type.IsWithin inner)
    (isOuter : outer ∈ union)
    (inside : ∀ other ∈ inner,
      ∃ parameter ∈ outer.ordered ++ outer.keys ++ outer.values, other ∈ parameter) :
    type.IsWithin union := by
  cases isWithin with
  | alternative member =>
      obtain ⟨parameter, isParameter, isInside⟩ := inside _ member
      exact .parameter isOuter isParameter (.alternative isInside)
  | parameter member isInner isWithin =>
      obtain ⟨parameter, isParameter, isInside⟩ := inside _ member
      exact .parameter isOuter isParameter (.parameter isInside isInner isWithin)

/-- More alternatives have more inside of them. -/
theorem of_subset
    (isWithin : type.IsWithin union)
    (subset : union ⊆ other) :
    type.IsWithin other := by
  cases isWithin with
  | alternative member =>
      exact .alternative (subset member)
  | parameter member isParameter isWithin =>
      exact .parameter (subset member) isParameter isWithin

end IsWithin

end DocType

namespace DocUnion

theorem sizeOf_lt_of_mem_parameter
    {union parameter : DocUnion}
    {type : DocType}
    (member : type ∈ union)
    (isParameter : parameter ∈ type.ordered ++ type.keys ++ type.values) :
    sizeOf parameter < sizeOf union := by
  have ofType := List.sizeOf_lt_of_mem member
  obtain ⟨name, ordered, keys, values, nullable⟩ := type
  simp only [DocType.mk.sizeOf_spec] at ofType
  simp only [List.mem_append] at isParameter
  rcases isParameter with (isOrdered | isKey) | isValue
  · have := List.sizeOf_lt_of_mem isOrdered
    omega
  · have := List.sizeOf_lt_of_mem isKey
    omega
  · have := List.sizeOf_lt_of_mem isValue
    omega

/-- A property of all unions is proved from the parameters of its alternatives to a union. -/
theorem induction
    {property : DocUnion → Prop}
    (step : ∀ union, (∀ type ∈ union,
      ∀ parameter ∈ type.ordered ++ type.keys ++ type.values, property parameter) →
        property union)
    (union : DocUnion) :
    property union :=
  step union fun _ _isMember parameter _isParameter => induction step parameter
termination_by sizeOf union
decreasing_by exact sizeOf_lt_of_mem_parameter _isMember _isParameter

section Searching

variable {property : DocType → Bool}

theorem contains_iff
    {union : DocUnion} :
    union.contains property = true ↔ ∃ type ∈ union, type.anyIn property = true := by
  unfold contains
  induction union with
  | nil =>
      simp [DocType.anyInUnion]
  | cons type rest inductionHypothesis =>
      simp [DocType.anyInUnion, inductionHypothesis]

theorem anyInParameters_iff
    {parameters : List DocUnion} :
    DocType.anyInParameters property parameters = true ↔
      ∃ parameter ∈ parameters, parameter.contains property = true := by
  induction parameters with
  | nil =>
      simp [DocType.anyInParameters]
  | cons parameter rest inductionHypothesis =>
      simp [DocType.anyInParameters, inductionHypothesis, contains]

theorem anyIn_iff
    {type : DocType} :
    type.anyIn property = true ↔
      property type = true ∨ ∃ parameter ∈ type.ordered ++ type.keys ++ type.values,
        DocUnion.contains property parameter = true := by
  obtain ⟨name, ordered, keys, values, nullable⟩ := type
  simp [DocType.anyIn, anyInParameters_iff, or_and_right, exists_or, or_assoc]

/-- The search at all depths finds every alternative with the property. -/
theorem contains_of_isWithin
    {union : DocUnion}
    {type : DocType}
    (isWithin : type.IsWithin union)
    (holds : property type = true) :
    union.contains property = true := by
  induction isWithin with
  | alternative member =>
      exact contains_iff.mpr ⟨type, member, anyIn_iff.mpr (.inl holds)⟩
  | parameter member isParameter _ inductionHypothesis =>
      exact contains_iff.mpr
        ⟨_, member, anyIn_iff.mpr (.inr ⟨_, isParameter, inductionHypothesis⟩)⟩

/-- The search at all depths finds nothing else. -/
theorem contains_iff_exists_isWithin
    {union : DocUnion} :
    union.contains property = true ↔
      ∃ type : DocType, type.IsWithin union ∧ property type = true := by
  refine ⟨fun found => ?_, fun ⟨type, isWithin, holds⟩ => contains_of_isWithin isWithin holds⟩
  induction union using induction with
  | step union inductionHypothesis =>
      obtain ⟨type, member, isIn⟩ := contains_iff.mp found
      rcases anyIn_iff.mp isIn with holds | ⟨parameter, isParameter, isInside⟩
      · exact ⟨type, .alternative member, holds⟩
      · obtain ⟨inner, isWithin, holds⟩ :=
          inductionHypothesis type member parameter isParameter isInside
        exact ⟨inner, .parameter member isParameter isWithin, holds⟩

end Searching

end DocUnion

end TagCheck
