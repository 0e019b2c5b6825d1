import TagCheck.Proofs.Index.Lookup

namespace TagCheck.Index

/-!
# The ways to look up methods

The methods of a namespace, the method that a call reaches, and all methods of one name are three
walks over the same row of definitions: the nearest namespace first, and in each the last definition
first.  The first walk keeps the first definition of every name, the second one stops at the first
definition of its name, and the third one keeps all of them.
-/

section FirstOfEachName

variable {seen : List String} {pins : List Pin}

/-- A name that was seen is not kept again. -/
theorem name_notMem_of_mem_firstOfEachName
    {pin : Pin}
    (member : pin ∈ firstOfEachName seen pins) :
    pin.name ∉ seen := by
  induction pins generalizing seen with
  | nil =>
      cases member
  | cons first rest inductionHypothesis =>
      unfold firstOfEachName at member
      split at member
      · exact inductionHypothesis member
      · next isNew =>
          rcases List.mem_cons.mp member with rfl | isRest
          · exact isNew
          · exact fun isSeen => inductionHypothesis isRest (List.mem_cons_of_mem _ isSeen)

theorem nodup_names_firstOfEachName :
    ((firstOfEachName seen pins).map (·.name)).Nodup := by
  induction pins generalizing seen with
  | nil =>
      exact List.nodup_nil
  | cons pin rest inductionHypothesis =>
      unfold firstOfEachName
      split
      · exact inductionHypothesis
      · refine List.nodup_cons.mpr ⟨?_, inductionHypothesis⟩
        intro isRepeated
        obtain ⟨other, member, sameName⟩ := List.mem_map.mp isRepeated
        exact name_notMem_of_mem_firstOfEachName member (sameName ▸ List.mem_cons_self)

/-- A name that was not seen is kept where it stands first. -/
theorem find?_firstOfEachName
    {name : String}
    (isNew : name ∉ seen) :
    (firstOfEachName seen pins).find? (·.name = name) = pins.find? (·.name = name) := by
  induction pins generalizing seen with
  | nil =>
      rfl
  | cons pin rest inductionHypothesis =>
      unfold firstOfEachName
      by_cases sameName : pin.name = name
      · have pinIsNew : pin.name ∉ seen := sameName ▸ isNew
        rw [if_neg pinIsNew, List.find?_cons_of_pos (by simpa using sameName),
          List.find?_cons_of_pos (by simpa using sameName)]
      · rw [List.find?_cons_of_neg (by simpa using sameName)]
        split
        · exact inductionHypothesis isNew
        · rw [List.find?_cons_of_neg (by simpa using sameName)]
          apply inductionHypothesis
          simp [isNew, Ne.symm sameName]

end FirstOfEachName

variable {index : Index} {path name : String} {scope : Scope}

/-- A call reaches the first definition of its name in the row. -/
theorem method?_eq_find? :
    index.method? path name scope =
      (index.methodsInOrder path scope).find? (·.name = name) := by
  rw [methodsInOrder, List.find?_flatMap]
  rfl

/-- All definitions of a name stand in the order of the row. -/
theorem methodStack_eq_filter :
    index.methodStack path name scope =
      (index.methodsInOrder path scope).filter (·.name = name) := by
  rw [methodsInOrder, List.filter_flatMap]
  rfl

/--
The methods of a namespace have different names.  The one with a given name is the method that a call
of the name reaches, and it is the first of all methods of the name; if there is none, there is no
method of the name at all.
-/
theorem methods_agree
    (index : Index)
    (path : String)
    (scope : Scope) :
    ((index.methods path scope).map (·.name)).Nodup ∧
      ∀ name,
        (∀ pin, pin ∈ index.methods path scope ∧ pin.name = name ↔
            index.method? path name scope = some pin) ∧
          (index.methodStack path name scope).head? = index.method? path name scope ∧
          (index.methodStack path name scope = [] ↔ index.method? path name scope = none) := by
  have nodup : ((index.methods path scope).map (·.name)).Nodup :=
    nodup_names_firstOfEachName
  have headStack : ∀ name,
      (index.methodStack path name scope).head? = index.method? path name scope := by
    intro name
    rw [methodStack_eq_filter, List.head?_filter, method?_eq_find?]
  refine ⟨nodup, fun name => ⟨fun pin => ?_, headStack name, ?_⟩⟩
  · rw [← find?_key_eq_some_iff nodup, methods, find?_firstOfEachName List.not_mem_nil,
      method?_eq_find?]
  · rw [← headStack name, List.head?_eq_none_iff]

end TagCheck.Index
