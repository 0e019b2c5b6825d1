import TagCheck.Proofs.Index.Openness
import TagCheck.Proofs.Index.Walk

namespace TagCheck

open Relation (ReflTransGen)

namespace Index

/-!
# What a walk over ancestors reaches

A walk over ancestors comes to an end before its limit, and it lists no name twice.  It stops at a
superclass that it met before.  Nothing is lost by that as long as the modules that are mixed in
have no superclass of their own: then the ancestors of a namespace are exactly what can be reached
from it, whatever cycles the references form.
-/

section Names

variable {index : Index} {path name : String}

/-- A declared name is the path of a pin. -/
theorem IsListed.exists_pin_of_isDeclared
    (listed : index.IsListed)
    (declared : index.isDeclared name = true) :
    ∃ pin ∈ index.pins, pin.path = name := by
  rw [isDeclared, Bool.or_eq_true] at declared
  rcases declared with hasKind | isAssigned
  · rw [Index.isNamespace, namespaceKind?, List.findSome?_isSome_iff] at hasKind
    obtain ⟨pin, atPath, -⟩ := hasKind
    exact ⟨pin, listed.mem_pathPins.mp atPath⟩
  · rw [isConstant, List.any_eq_true] at isAssigned
    obtain ⟨pin, atPath, -⟩ := isAssigned
    exact ⟨pin, listed.mem_pathPins.mp atPath⟩

/-- All names that a walk from a path can meet. -/
def namesFrom (index : Index) (path : String) : Finset String :=
  insert path (insert "Object" (insert "BasicObject" (index.pins.map (·.path)).toFinset))

theorem mem_namesFrom_self :
    path ∈ index.namesFrom path :=
  Finset.mem_insert_self path _

/-- There are no more names than a walk has steps. -/
theorem card_namesFrom_le :
    (index.namesFrom path).card ≤ index.walkLimit := by
  have paths : (index.pins.map (·.path)).toFinset.card ≤ index.pins.length := by
    rw [← List.length_map (·.path)]
    exact List.toFinset_card_le _
  have third := Finset.card_insert_le "BasicObject" (index.pins.map (·.path)).toFinset
  have second :=
    Finset.card_insert_le "Object" (insert "BasicObject" (index.pins.map (·.path)).toFinset)
  have first :=
    Finset.card_insert_le path
      (insert "Object" (insert "BasicObject" (index.pins.map (·.path)).toFinset))
  unfold namesFrom walkLimit
  omega

/-- The look-up goes on to declared names and to the classes at the root of all others. -/
theorem IsListed.mem_namesFrom_of_passesOn
    (listed : index.IsListed)
    {other : String}
    (passesOn : index.PassesOn other name) :
    name ∈ index.namesFrom path := by
  refine Finset.mem_insert_of_mem ?_
  rcases passesOn.refersTo_or_root with refers | rfl | rfl
  · obtain ⟨pin, member, rfl⟩ := listed.exists_pin_of_isDeclared refers.isDeclared
    refine Finset.mem_insert_of_mem (Finset.mem_insert_of_mem ?_)
    exact List.mem_toFinset.mpr (List.mem_map.mpr ⟨pin, member, rfl⟩)
  · exact Finset.mem_insert_self "Object" _
  · exact Finset.mem_insert_of_mem (Finset.mem_insert_self "BasicObject" _)

/-- The walk over the ancestors of a path comes to an end before its limit. -/
theorem IsListed.listsAncestors
    (listed : index.IsListed)
    (path : String) :
    index.ListsAncestors ⟨[], []⟩ path (index.listAncestors index.walkLimit ⟨[], []⟩ path) := by
  have small := @card_namesFrom_le index path
  refine listsAncestors_listAncestors (fun _ _ => listed.mem_namesFrom_of_passesOn) small
    mem_namesFrom_self ?_
  exact (Finset.card_filter_le _ _).trans small

/-- The ancestors of a module by its own mixins are what it reaches by them. -/
theorem IsListed.mem_moduleAncestors
    (listed : index.IsListed) :
    name ∈ index.moduleAncestors path ↔ ReflTransGen index.Mixes path name := by
  have small := @card_namesFrom_le index path
  have lists :
      index.ListsModules ⟨[], []⟩ [path] (index.listModule index.walkLimit ⟨[], []⟩ path) := by
    refine listsModules_listModule ?_ mem_namesFrom_self ((Finset.card_filter_le _ _).trans small)
    intro other name mixes
    exact listed.mem_namesFrom_of_passesOn mixes.passesOn
  obtain ⟨met, meets, closed⟩ := lists.exists_meets
  exact closed.mem_listed_iff meets

/-- Mixed in is only what a mixin call refers to. -/
theorem IsListed.mixesModulesOnly
    (listed : index.IsListed)
    (checked :
      ∀ pin ∈ index.pins, (referenceKey? pin).isSome = true →
        ((index.qualifyLexical? pin.name pin.gates).all fun name =>
          (index.superclassOf? name).isNone) = true) :
    index.MixesModulesOnly := by
  have ofMixin : ∀ path name kind, name ∈ index.mixins path kind →
      index.superclassOf? name = none := by
    intro path name kind member
    unfold mixins at member
    split at member
    · obtain ⟨pin, referred, qualified⟩ := List.mem_filterMap.mp member
      have called := listed.mem_mixinCalls.mp (List.mem_filter.mp referred).1
      have noSuperclass := checked pin called.1 (by rw [called.2, Option.isSome_some])
      rw [qualified, Option.all_some] at noSuperclass
      exact Option.isNone_iff_eq_none.mp noSuperclass
    · cases member
  intro path name mixes
  rcases mixes with isPrepended | isIncluded
  · exact ofMixin path name .prepending isPrepended
  · exact ofMixin path name .inclusion isIncluded

end Names

/--
If no mixed-in name has a superclass, every walk over ancestors comes to an end and lists exactly
the names that can be reached by superclasses and mixins, each of them once.
-/
theorem ancestors_of_mixesModulesOnly
    (pins : List Pin)
    (modulesOnly : (ofPins pins).MixesModulesOnly) :
    (∀ path, ∃ walk, (ofPins pins).ListsAncestors ⟨[], []⟩ path walk ∧
      walk.listed = (ofPins pins).ancestors path) ∧
    (∀ path, ((ofPins pins).ancestors path).Nodup) ∧
    (∀ path name, name ∈ (ofPins pins).ancestors path ↔
      ReflTransGen (ofPins pins).PassesOn path name) ∧
    ∀ first second third, second ∈ (ofPins pins).ancestors first →
      third ∈ (ofPins pins).ancestors second → third ∈ (ofPins pins).ancestors first := by
  have lists := (isListed_ofPins pins).listsAncestors
  have reached : ∀ path name, name ∈ (ofPins pins).ancestors path ↔
      ReflTransGen (ofPins pins).PassesOn path name := by
    intro path name
    obtain ⟨met, meets, closed⟩ := (lists path).exists_meets modulesOnly
    exact closed.mem_listed_iff meets
  refine ⟨?_, ?_, reached, ?_⟩
  · intro path
    exact ⟨_, lists path, rfl⟩
  · intro path
    obtain ⟨met, meets, -⟩ := (lists path).exists_meets modulesOnly
    rw [ancestors, meets.listed_eq, List.nil_append]
    exact meets.nodup
  · intro first second third isAncestor isFurther
    rw [reached] at isAncestor isFurther ⊢
    exact isAncestor.trans isFurther

end Index

namespace CyclicInclusion

open Stub.Layout

/-- Two modules `A` and `B` that include each other. -/
def source : Source where
  filename := "cycle.rb"
  root :=
    branch .program none ⟨0, 0⟩ ⟨6, 0⟩
      [branch .moduleDefinition none ⟨0, 0⟩ ⟨2, 3⟩
        [leaf .constant (some .name) ⟨0, 7⟩ "A", inclusionNode ⟨1, 2⟩ "B"],
        branch .moduleDefinition none ⟨3, 0⟩ ⟨5, 3⟩
          [leaf .constant (some .name) ⟨3, 7⟩ "B", inclusionNode ⟨4, 2⟩ "A"]]
  isParsed := true

/-- The declarations of the source. -/
def pins : List Pin :=
  (Outline.ofSource 1 source).pins

theorem mixesModulesOnly :
    (Index.ofPins pins).MixesModulesOnly := by
  refine (Index.isListed_ofPins pins).mixesModulesOnly ?_
  rw [Index.ofPins_eq_ofList]
  decide +kernel

/-- From `A`, the walk lists exactly what can be reached, although the modules form a cycle. -/
theorem ancestors_of_a :
    (Index.ofPins pins).MixesModulesOnly ∧
      ((Index.ofPins pins).ancestors "A").Nodup ∧
      ∀ name, name ∈ (Index.ofPins pins).ancestors "A" ↔
        ReflTransGen (Index.ofPins pins).PassesOn "A" name := by
  obtain ⟨-, nodup, reached, -⟩ := Index.ancestors_of_mixesModulesOnly pins mixesModulesOnly
  exact ⟨mixesModulesOnly, nodup "A", reached "A"⟩

end CyclicInclusion

end TagCheck
