import Mathlib.Data.List.Nodup
import TagCheck.DocType.Basic

namespace TagCheck.DocUnion

/-!
# Unions without repetition

Building a union drops the alternatives that stand before already, and so it keeps a list exactly if
the list has no repetition.
-/

section Adding

variable {found more : List DocType}

theorem addAll_cons_of_mem
    {type : DocType}
    (member : type ∈ found) :
    addAll found (type :: more) = addAll found more := by
  rw [addAll, List.foldl_cons, if_pos member]
  rfl

theorem addAll_cons_of_notMem
    {type : DocType}
    (isNew : type ∉ found) :
    addAll found (type :: more) = addAll (found ++ [type]) more := by
  rw [addAll, List.foldl_cons, if_neg isNew]
  rfl

/-- Whatever is there or added is there at last. -/
theorem mem_addAll
    {type : DocType} :
    type ∈ addAll found more ↔ type ∈ found ∨ type ∈ more := by
  induction more generalizing found with
  | nil =>
      simp [addAll]
  | cons first rest inductionHypothesis =>
      by_cases member : first ∈ found
      · rw [addAll_cons_of_mem member, inductionHypothesis, List.mem_cons]
        constructor
        · rintro (isFound | isAdded)
          · exact .inl isFound
          · exact .inr (.inr isAdded)
        · rintro (isFound | rfl | isAdded)
          · exact .inl isFound
          · exact .inl member
          · exact .inr isAdded
      · rw [addAll_cons_of_notMem member, inductionHypothesis, List.mem_append, List.mem_singleton,
          List.mem_cons, or_assoc]

theorem nodup_addAll
    (nodup : found.Nodup) :
    (addAll found more).Nodup := by
  induction more generalizing found with
  | nil =>
      exact nodup
  | cons first rest inductionHypothesis =>
      by_cases member : first ∈ found
      · rw [addAll_cons_of_mem member]
        exact inductionHypothesis nodup
      · rw [addAll_cons_of_notMem member]
        apply inductionHypothesis
        rw [← List.concat_eq_append]
        exact nodup.concat member

/-- Alternatives are added in their order, and some are left out. -/
theorem addAll_sublist :
    (addAll found more).Sublist (found ++ more) := by
  induction more generalizing found with
  | nil =>
      exact (List.append_nil found).symm ▸ List.Sublist.refl found
  | cons first rest inductionHypothesis =>
      by_cases member : first ∈ found
      · rw [addAll_cons_of_mem member]
        exact inductionHypothesis.trans ((List.sublist_cons_self first rest).append_left found)
      · have further := @inductionHypothesis (found ++ [first])
        rw [List.append_assoc, List.singleton_append] at further
        rwa [addAll_cons_of_notMem member]

/-- What is there keeps its place. -/
theorem prefix_addAll :
    found <+: addAll found more := by
  induction more generalizing found with
  | nil =>
      exact List.prefix_refl found
  | cons first rest inductionHypothesis =>
      by_cases member : first ∈ found
      · rw [addAll_cons_of_mem member]
        exact inductionHypothesis
      · rw [addAll_cons_of_notMem member]
        exact (List.prefix_append found [first]).trans inductionHypothesis

theorem addAll_of_nodup
    (nodup : (found ++ more).Nodup) :
    addAll found more = found ++ more := by
  induction more generalizing found with
  | nil =>
      exact (List.append_nil found).symm
  | cons first rest inductionHypothesis =>
      rw [List.append_cons] at nodup ⊢
      have isNew : first ∉ found := by
        intro member
        have separate := (List.nodup_append.mp (List.Nodup.of_append_left nodup)).2.2
        exact separate first member first List.mem_cons_self rfl
      rw [addAll_cons_of_notMem isNew]
      exact inductionHypothesis nodup

theorem addAll_append
    {further : List DocType} :
    addAll found (more ++ further) = addAll (addAll found more) further :=
  List.foldl_append

/-- Nothing changes if all that is added is there. -/
theorem addAll_of_subset
    (subset : more ⊆ found) :
    addAll found more = found := by
  induction more with
  | nil =>
      rfl
  | cons first rest inductionHypothesis =>
      obtain ⟨member, others⟩ := List.cons_subset.mp subset
      rw [addAll_cons_of_mem member, inductionHypothesis others]

/-- What becomes of a repeated alternative is there already from its first occurrence. -/
theorem addAll_flatMap_addAll
    {start : List DocType}
    {change : DocType → List DocType} :
    addAll start ((addAll found more).flatMap change) =
      addAll start ((found ++ more).flatMap change) := by
  induction more generalizing found with
  | nil =>
      rw [List.append_nil, addAll_of_subset (List.nil_subset found)]
  | cons first rest inductionHypothesis =>
      by_cases member : first ∈ found
      · have isThere : change first ⊆ addAll start (found.flatMap change) := by
          intro type isChanged
          exact mem_addAll.mpr (.inr (List.mem_flatMap.mpr ⟨first, member, isChanged⟩))
        rw [addAll_cons_of_mem member, inductionHypothesis, List.flatMap_append,
          List.flatMap_append, List.flatMap_cons, addAll_append, addAll_append, addAll_append,
          addAll_of_subset isThere]
      · rw [addAll_cons_of_notMem member, inductionHypothesis, ← List.append_cons]

end Adding

section Building

variable {types : List DocType}

@[simp] theorem mem_ofList
    {type : DocType} :
    type ∈ ofList types ↔ type ∈ types := by
  simp [ofList, mem_addAll]

theorem ofList_cons
    (type : DocType)
    (rest : List DocType) :
    ∃ others, ofList (type :: rest) = type :: others := by
  obtain ⟨others, isFirst⟩ : [type] <+: addAll [type] rest := prefix_addAll
  exact ⟨others, isFirst.symm⟩

theorem nodup_ofList :
    (ofList types).Nodup :=
  nodup_addAll List.nodup_nil

theorem ofList_of_nodup
    (nodup : types.Nodup) :
    ofList types = types :=
  addAll_of_nodup nodup

/-- Changing the alternatives of a union keeps the union exactly if it keeps every alternative. -/
theorem ofList_map_eq_iff
    {union : DocUnion}
    (nodup : union.Nodup)
    {change : DocType → DocType} :
    ofList (union.map change) = union ↔ ∀ type ∈ union, change type = type := by
  constructor
  · intro same
    -- Nothing is left out, since the union is as long as before.
    have sameLength : (ofList (union.map change)).length = (union.map change).length := by
      rw [same, List.length_map]
    have kept : ofList (union.map change) = union.map change :=
      addAll_sublist.eq_of_length sameLength
    have unchanged : union.map change = union.map id := by
      rw [List.map_id, ← kept, same]
    exact List.map_inj_left.mp unchanged
  · intro unchanged
    have kept : union.map change = union.map id := List.map_inj_left.mpr unchanged
    rw [kept, List.map_id]
    exact ofList_of_nodup nodup

theorem ofList_flatMap_ofList
    {change : DocType → List DocType} :
    ofList ((ofList types).flatMap change) = ofList (types.flatMap change) :=
  addAll_flatMap_addAll

/-- Adding the alternatives of a union is adding them one by one. -/
theorem addAll_ofList
    {found : List DocType} :
    addAll found (ofList types) = addAll found types := by
  have separate := @addAll_flatMap_addAll [] types found fun type => [type]
  rwa [List.flatMap_singleton', List.flatMap_singleton', List.nil_append] at separate

/-- A union of changed alternatives depends only on the union that each of them becomes. -/
theorem ofList_flatMap_congr
    {change other : DocType → List DocType}
    (same : ∀ type ∈ types, ofList (change type) = ofList (other type)) :
    ofList (types.flatMap change) = ofList (types.flatMap other) := by
  have sameFrom : ∀ found,
      addAll found (types.flatMap change) = addAll found (types.flatMap other) := by
    intro found
    induction types generalizing found with
    | nil =>
        rfl
    | cons first rest inductionHypothesis =>
        obtain ⟨sameFirst, sameRest⟩ := List.forall_mem_cons.mp same
        have sameSoFar : addAll found (change first) = addAll found (other first) := by
          rw [← addAll_ofList, sameFirst, addAll_ofList]
        rw [List.flatMap_cons, List.flatMap_cons, addAll_append, addAll_append, sameSoFar,
          inductionHypothesis sameRest]
  exact sameFrom []

end Building

end TagCheck.DocUnion
