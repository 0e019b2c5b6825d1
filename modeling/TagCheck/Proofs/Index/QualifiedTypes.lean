import TagCheck.Proofs.DocType.Depth
import TagCheck.Proofs.Index.Openness
import TagCheck.Proofs.Index.Requalification

namespace TagCheck

/-!
# What qualified names name

Whatever a name is qualified to is declared, however the name is written: each way of searching tries
paths, and takes one only if it is declared.  So in a type whose names can all be qualified, every
qualified name at every depth is that of a declared namespace or constant, or a tag that names none.
-/

namespace Index

section Names

variable {index : Index} {name context : String}

theorem isDeclared_of_qualifyWithin?
    {limit : Nat}
    {path : String}
    (found : index.qualifyWithin? limit name context = some path) :
    index.isDeclared path = true := by
  induction limit generalizing name context with
  | zero =>
      cases found
  | succ limit inductionHypothesis =>
      rw [qualifyWithin?] at found
      split at found
      · cases found
      · split at found
        · exact inductionHypothesis found
        · exact isDeclared_of_qualifyRelative? found

/-- Whatever a name is qualified to is declared. -/
theorem isDeclared_of_qualify?
    {path : String}
    (found : index.qualify? name context = some path) :
    index.isDeclared path = true :=
  isDeclared_of_qualifyWithin? found

end Names

section Types

variable {index : Index} {context : String}

/-- A resolvable name is qualified to a declared one, unless it is a tag that names nothing. -/
theorem isDeclared_qualifyTypeName
    (name : String)
    (nilDeclared : index.isDeclared "NilClass" = true)
    (resolvable : (!(DocType.named name).isPseudo && !(DocType.named name).isNil &&
      (index.qualify? name context).isNone) = false) :
    (DocType.named (index.qualifyTypeName context name)).isPseudo = true ∨
      index.isDeclared (index.qualifyTypeName context name) = true := by
  by_cases isTag : (DocType.named name).isNil = true ∨ (DocType.named name).isPseudo = true
  · rw [qualifyTypeName_of_tag isTag]
    split
    · exact .inr nilDeclared
    · next notNil =>
        exact .inl (isTag.resolve_left notNil)
  · rw [qualifyTypeName_of_not_tag isTag]
    obtain ⟨notNil, notPseudo⟩ := not_or.mp isTag
    simp only [notNil, notPseudo, Bool.not_false, Bool.true_and] at resolvable
    cases found : index.qualify? name context with
    | none =>
        simp [found] at resolvable
    | some path =>
        exact .inr (isDeclared_of_qualify? found)

theorem qualifyParameters_eq_map
    (parameters : List (List DocType)) :
    index.qualifyParameters context parameters =
      parameters.map fun parameter => index.qualifyType parameter context := by
  induction parameters with
  | nil =>
      rfl
  | cons parameter rest inductionHypothesis =>
      rw [qualifyParameters, inductionHypothesis, List.map_cons]
      rfl

/-- The alternatives of a qualified union are those of the union, qualified. -/
theorem exists_of_mem_qualifyType
    {union : DocUnion}
    {type : DocType}
    (member : type ∈ index.qualifyType union context) :
    ∃ written ∈ union, type = index.qualifyAlternative context written := by
  rw [qualifyType, DocUnion.mem_ofList, qualifyAlternatives_eq_map] at member
  obtain ⟨written, isWritten, rfl⟩ := List.mem_map.mp member
  exact ⟨written, isWritten, rfl⟩

theorem name_qualifyAlternative
    (type : DocType) :
    (index.qualifyAlternative context type).name = index.qualifyTypeName context type.name := by
  cases type
  rfl

/-- The parameters of a qualified alternative are those of the alternative, qualified. -/
theorem exists_of_mem_parameters_qualifyAlternative
    {type : DocType}
    {parameter : DocUnion}
    (member : parameter ∈ (index.qualifyAlternative context type).ordered ++
      (index.qualifyAlternative context type).keys ++
      (index.qualifyAlternative context type).values) :
    ∃ written ∈ type.ordered ++ type.keys ++ type.values,
      parameter = index.qualifyType written context := by
  obtain ⟨name, ordered, keys, values, nullable⟩ := type
  simp only [qualifyAlternative, qualifyParameters_eq_map, ← List.map_append] at member
  obtain ⟨written, isWritten, rfl⟩ := List.mem_map.mp member
  exact ⟨written, isWritten, rfl⟩

/-- At every depth of a qualified type stands a qualified name of the type. -/
theorem exists_of_isWithin_qualifyType
    {union : DocUnion}
    {type : DocType}
    (isWithin : type.IsWithin (index.qualifyType union context)) :
    ∃ written : DocType, written.IsWithin union ∧
      type.name = index.qualifyTypeName context written.name := by
  generalize isQualified : index.qualifyType union context = qualified at isWithin
  induction isWithin generalizing union with
  | alternative member =>
      subst isQualified
      obtain ⟨written, isWritten, rfl⟩ := exists_of_mem_qualifyType member
      exact ⟨written, .alternative isWritten, name_qualifyAlternative written⟩
  | parameter member isParameter _ inductionHypothesis =>
      subst isQualified
      obtain ⟨outer, isOuter, rfl⟩ := exists_of_mem_qualifyType member
      obtain ⟨inner, isInner, rfl⟩ := exists_of_mem_parameters_qualifyAlternative isParameter
      obtain ⟨written, isWritten, sameName⟩ := inductionHypothesis rfl
      exact ⟨written, .parameter isOuter isInner isWritten, sameName⟩

/-- No name in a resolvable type is left without a meaning. -/
theorem resolvable_of_isWithin
    {union : DocUnion}
    (resolvable : index.isResolvable union context = true)
    {type : DocType}
    (isWithin : type.IsWithin union) :
    (!type.isPseudo && !type.isNil && (index.qualify? type.name context).isNone) = false := by
  by_contra isUnresolved
  rw [Bool.not_eq_false] at isUnresolved
  have contains : union.contains (fun item => !item.isPseudo && !item.isNil &&
      (index.qualify? item.name context).isNone) = true :=
    DocUnion.contains_of_isWithin isWithin isUnresolved
  rw [isResolvable, contains] at resolvable
  cases resolvable

end Types

/-- The class of nil is a namespace of every program. -/
theorem isDeclared_nilClass
    (pins : List Pin) :
    (ofPins pins).isDeclared "NilClass" = true := by
  rw [isDeclared, isNamespace_of_coreLibrary pins (by decide +kernel), Bool.true_or]

/--
Whatever a name is qualified to in a context is declared.  And in a type whose names can all be
qualified, every alternative at every depth of the qualified type has the name of a declared namespace
or constant, unless it is a tag that names none.
-/
theorem isDeclared_of_qualified
    (pins : List Pin) :
    (∀ name context path, (ofPins pins).qualify? name context = some path →
        (ofPins pins).isDeclared path = true) ∧
      ∀ (union : DocUnion) (context : String), (ofPins pins).isResolvable union context = true →
        ∀ type : DocType, type.IsWithin ((ofPins pins).qualifyType union context) →
          type.isPseudo = false → (ofPins pins).isDeclared type.name = true := by
  refine ⟨fun name context path found => isDeclared_of_qualify? found, ?_⟩
  intro union context resolvable type isWithin notPseudo
  obtain ⟨written, isWritten, sameName⟩ := exists_of_isWithin_qualifyType isWithin
  have hasMeaning := resolvable_of_isWithin resolvable isWritten
  have outcome := isDeclared_qualifyTypeName written.name (isDeclared_nilClass pins) hasMeaning
  rw [← sameName] at outcome
  exact outcome.resolve_left (ne_true_of_eq_false notPseudo)

end Index

/-- A list of items of `Shop` is qualified to a list of a declared class. -/
theorem NestedNamesake.isDeclared_items :
    (Index.ofPins pins).isDeclared "Shop::Item" = true ∧
      DocType.IsWithin (.named "Shop::Item")
        ((Index.ofPins pins).qualifyType [.withOrdered "Array" [[.named "Item"]]] "Shop") ∧
      (Index.ofPins pins).isDeclared (DocType.named "Shop::Item").name = true := by
  have found :
      (Index.ofPins pins).qualify? "Item" "Shop" = some "Shop::Item" ∧
      (Index.ofPins pins).isResolvable [.withOrdered "Array" [[.named "Item"]]] "Shop" = true ∧
      (Index.ofPins pins).qualifyType [.withOrdered "Array" [[.named "Item"]]] "Shop" =
        [.withOrdered "Array" [[.named "Shop::Item"]]] := by
    rw [Index.ofPins_eq_ofList]
    decide +kernel
  obtain ⟨isFound, resolvable, qualified⟩ := found
  have isWithin : DocType.IsWithin (.named "Shop::Item")
      ((Index.ofPins pins).qualifyType [.withOrdered "Array" [[.named "Item"]]] "Shop") := by
    rw [qualified]
    exact .parameter (List.mem_singleton_self _) (List.mem_singleton_self _)
      (.alternative (List.mem_singleton_self _))
  exact ⟨(Index.isDeclared_of_qualified pins).1 "Item" "Shop" "Shop::Item" isFound, isWithin,
    (Index.isDeclared_of_qualified pins).2 _ _ resolvable _ isWithin (by decide +kernel)⟩

end TagCheck
