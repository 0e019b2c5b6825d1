import TagCheck.Proofs.DocType.Depth

namespace TagCheck

/-!
# Substitution at every depth

A substitution gives an alternative way to all alternatives of its replacement, or keeps it and goes
on inside its parameters.  Whatever stands in the outcome stands in a replacement, or was kept.  Two
substitutions of the same alternatives, one after the other, are one substitution, by the replacements
of the first with the second carried out in them.
-/

namespace DocType

/-- An alternative with other parameters. -/
def mapParameters (change : DocUnion → DocUnion) (type : DocType) : DocType :=
  ⟨type.name, type.ordered.map change, type.keys.map change, type.values.map change, type.nullable⟩

section Shape

variable {replacement? : DocType → Option DocUnion}

theorem substituteAlternatives_eq_flatMap
    (types : List DocType) :
    substituteAlternatives replacement? types = types.flatMap (substitute replacement?) := by
  induction types with
  | nil =>
      rfl
  | cons type rest inductionHypothesis =>
      rw [substituteAlternatives, inductionHypothesis, List.flatMap_cons]

theorem substituteParameters_eq_map
    (parameters : List DocUnion) :
    substituteParameters replacement? parameters =
      parameters.map (DocUnion.substitute replacement?) := by
  induction parameters with
  | nil =>
      rfl
  | cons parameter rest inductionHypothesis =>
      rw [substituteParameters, inductionHypothesis, List.map_cons]
      rfl

theorem substitute_of_replaced
    {type : DocType}
    {replacement : DocUnion}
    (replaced : replacement? type = some replacement) :
    substitute replacement? type = replacement := by
  cases type
  rw [substitute, replaced]

theorem substitute_of_kept
    {type : DocType}
    (kept : replacement? type = none) :
    substitute replacement? type = [type.mapParameters (DocUnion.substitute replacement?)] := by
  cases type
  rw [substitute, kept]
  simp only [mapParameters, substituteParameters_eq_map]

/-- A kept alternative has the parameters of the one that was written, changed. -/
theorem exists_of_mem_parameters_mapParameters
    {change : DocUnion → DocUnion}
    {type : DocType}
    {parameter : DocUnion}
    (isParameter : parameter ∈ (type.mapParameters change).ordered ++
      (type.mapParameters change).keys ++ (type.mapParameters change).values) :
    ∃ written ∈ type.ordered ++ type.keys ++ type.values, change written = parameter := by
  simpa only [mapParameters, ← List.map_append, List.mem_map] using isParameter

theorem mem_parameters_mapParameters
    {change : DocUnion → DocUnion}
    {type : DocType}
    {written : DocUnion}
    (isParameter : written ∈ type.ordered ++ type.keys ++ type.values) :
    change written ∈ (type.mapParameters change).ordered ++ (type.mapParameters change).keys ++
      (type.mapParameters change).values := by
  simpa only [mapParameters, ← List.map_append] using List.mem_map_of_mem isParameter

theorem mapParameters_congr
    {change other : DocUnion → DocUnion}
    {type : DocType}
    (same : ∀ parameter ∈ type.ordered ++ type.keys ++ type.values,
      change parameter = other parameter) :
    type.mapParameters change = type.mapParameters other := by
  simp only [List.mem_append, or_imp, forall_and] at same
  obtain ⟨⟨sameOrdered, sameKeys⟩, sameValues⟩ := same
  rw [mapParameters, List.map_congr_left sameOrdered, List.map_congr_left sameKeys,
    List.map_congr_left sameValues]
  rfl

end Shape

end DocType

namespace DocUnion

section Inside

variable {replacement? : DocType → Option DocUnion} {union : DocUnion}

theorem substitute_eq_ofList :
    union.substitute replacement? = ofList (union.flatMap (DocType.substitute replacement?)) := by
  rw [substitute, DocType.substituteAlternatives_eq_flatMap]

theorem mem_substitute
    {type : DocType} :
    type ∈ union.substitute replacement? ↔
      ∃ written ∈ union, type ∈ DocType.substitute replacement? written := by
  rw [substitute_eq_ofList, mem_ofList, List.mem_flatMap]

theorem exists_mem_substitute_iff
    {property : DocType → Prop} :
    (∃ type ∈ union.substitute replacement?, property type) ↔
      ∃ written ∈ union, ∃ type ∈ DocType.substitute replacement? written, property type := by
  constructor
  · rintro ⟨type, member, holds⟩
    obtain ⟨written, isWritten, isInside⟩ := mem_substitute.mp member
    exact ⟨written, isWritten, type, isInside, holds⟩
  · rintro ⟨written, isWritten, type, isInside, holds⟩
    exact ⟨type, mem_substitute.mpr ⟨written, isWritten, isInside⟩, holds⟩

/-- What stands in the outcome of a substitution stands in a replacement, or was kept. -/
theorem exists_of_isWithin_substitute
    {type : DocType}
    (isWithin : type.IsWithin (union.substitute replacement?)) :
    ∃ written : DocType, written.IsWithin union ∧
      ((∃ replacement, replacement? written = some replacement ∧ type.IsWithin replacement) ∨
        replacement? written = none ∧ type.name = written.name) := by
  generalize isOutcome : union.substitute replacement? = outcome at isWithin
  induction isWithin generalizing union with
  | alternative member =>
      subst isOutcome
      obtain ⟨written, isWritten, member⟩ := mem_substitute.mp member
      refine ⟨written, .alternative isWritten, ?_⟩
      cases verdict : replacement? written with
      | none =>
          rw [DocType.substitute_of_kept verdict, List.mem_singleton] at member
          exact .inr ⟨rfl, by rw [member, DocType.mapParameters]⟩
      | some replacement =>
          rw [DocType.substitute_of_replaced verdict] at member
          exact .inl ⟨replacement, rfl, .alternative member⟩
  | parameter member isParameter isWithin inductionHypothesis =>
      subst isOutcome
      obtain ⟨outer, isOuter, member⟩ := mem_substitute.mp member
      cases verdict : replacement? outer with
      | none =>
          rw [DocType.substitute_of_kept verdict, List.mem_singleton] at member
          subst member
          obtain ⟨inner, isInner, rfl⟩ :=
            DocType.exists_of_mem_parameters_mapParameters isParameter
          obtain ⟨written, isWritten, origin⟩ := inductionHypothesis rfl
          exact ⟨written, .parameter isOuter isInner isWritten, origin⟩
      | some replacement =>
          rw [DocType.substitute_of_replaced verdict] at member
          exact ⟨outer, .alternative isOuter,
            .inl ⟨replacement, verdict, .parameter member isParameter isWithin⟩⟩

/-- If all that is replaced has the same replacement, it gets into the outcome from every depth. -/
theorem isWithin_substitute
    {placeholder : DocType → Bool}
    {replacement : DocUnion}
    {type written : DocType}
    (isWritten : written.IsWithin union)
    (isReplaced : placeholder written = true)
    (isWithin : type.IsWithin replacement) :
    type.IsWithin
      (union.substitute fun type => if placeholder type then some replacement else none) := by
  have ofAlternative {union : DocUnion} {outer : DocType} (isOuter : outer ∈ union)
      (isReplaced : placeholder outer = true) : type.IsWithin
        (union.substitute fun type => if placeholder type then some replacement else none) := by
    refine isWithin.of_subset fun inner isInner => mem_substitute.mpr ⟨outer, isOuter, ?_⟩
    rwa [DocType.substitute_of_replaced (if_pos isReplaced)]
  induction isWritten with
  | alternative member =>
      exact ofAlternative member isReplaced
  | @parameter _ _ outer member isParameter _ inductionHypothesis =>
      by_cases isOuterReplaced : placeholder outer = true
      · exact ofAlternative member isOuterReplaced
      · refine .parameter (mem_substitute.mpr ⟨outer, member, ?_⟩)
          (DocType.mem_parameters_mapParameters isParameter) inductionHypothesis
        rw [DocType.substitute_of_kept (if_neg isOuterReplaced), List.mem_singleton]

end Inside

/-- Only the alternatives of the replacements matter, and not their repetitions. -/
theorem substitute_congr
    {first second : DocType → Option DocUnion}
    (same : ∀ type, (first type).map ofList = (second type).map ofList)
    (union : DocUnion) :
    union.substitute first = union.substitute second := by
  induction union using induction with
  | step union inductionHypothesis =>
      rw [substitute_eq_ofList, substitute_eq_ofList]
      refine ofList_flatMap_congr fun type member => ?_
      have sameReplacement := same type
      cases verdict : first type with
      | some replacement =>
          rw [verdict, Option.map_some, eq_comm, Option.map_eq_some_iff] at sameReplacement
          obtain ⟨other, replaced, sameUnion⟩ := sameReplacement
          rw [DocType.substitute_of_replaced verdict, DocType.substitute_of_replaced replaced,
            sameUnion]
      | none =>
          rw [verdict, Option.map_none, eq_comm, Option.map_eq_none_iff] at sameReplacement
          rw [DocType.substitute_of_kept verdict, DocType.substitute_of_kept sameReplacement,
            DocType.mapParameters_congr (inductionHypothesis type member)]

/--
Two substitutions, one after the other, are one substitution, if the second keeps what the first keeps.
-/
theorem substitute_substitute
    {first second : DocType → Option DocUnion}
    (keeps : ∀ type change, first type = none → second (type.mapParameters change) = none)
    (union : DocUnion) :
    (union.substitute first).substitute second =
      union.substitute fun type => (first type).map (substitute second) := by
  induction union using induction with
  | step union inductionHypothesis =>
      rw [substitute_eq_ofList, substitute_eq_ofList, substitute_eq_ofList, ofList_flatMap_ofList,
        List.flatMap_assoc]
      refine ofList_flatMap_congr fun type member => ?_
      cases verdict : first type with
      | some replacement =>
          have replaced : (first type).map (substitute second) =
              some (replacement.substitute second) := by
            rw [verdict, Option.map_some]
          rw [DocType.substitute_of_replaced verdict, DocType.substitute_of_replaced replaced,
            substitute_eq_ofList, ofList_of_nodup nodup_ofList]
      | none =>
          have kept : (first type).map (substitute second) = none := by
            rw [verdict, Option.map_none]
          have sameParameters := DocType.mapParameters_congr (inductionHypothesis type member)
          rw [DocType.substitute_of_kept verdict, DocType.substitute_of_kept kept,
            List.flatMap_singleton, DocType.substitute_of_kept (keeps type _ verdict),
            ← sameParameters]
          simp only [DocType.mapParameters, List.map_map, Function.comp_def]

end DocUnion

end TagCheck
