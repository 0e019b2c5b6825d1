import TagCheck.Index.Ancestry

namespace TagCheck.Index

/-!
# Where ancestors come from

A walk over ancestors lists the namespace that it starts from, and otherwise only what a listed
namespace hands the look-up on to: a module that it mixes in, or its superclass.
-/

variable {index : Index}

/-- A namespace hands the look-up on to a module that it mixes in, or to its superclass. -/
def PassesOn (index : Index) (path next : String) : Prop :=
  next ∈ index.mixins path .prepending ∨ next ∈ index.mixins path .inclusion ∨
    index.superclassOf? path = some next

/-- A walk goes on: it lists some roots, and what listed namespaces hand the look-up on to. -/
structure Extends (index : Index) (roots : List String) (before after : Walk) : Prop where
  subset : before.listed ⊆ after.listed
  origin : ∀ name ∈ after.listed, name ∈ before.listed ∨ name ∈ roots ∨
    ∃ path ∈ after.listed, index.PassesOn path name

namespace Extends

variable {roots : List String} {before after : Walk}

/-- A walk that stops lists nothing. -/
theorem of_listed_eq
    (same : after.listed = before.listed) :
    index.Extends roots before after where
  subset := by
    rw [same]
    exact List.Subset.refl before.listed
  origin name member := by
    rw [same] at member
    exact .inl member

/-- Two parts of a walk list the roots of both. -/
theorem trans
    {middle : Walk}
    {others : List String}
    (first : index.Extends roots before middle)
    (second : index.Extends others middle after) :
    index.Extends (roots ++ others) before after where
  subset := List.Subset.trans first.subset second.subset
  origin name member := by
    rcases second.origin name member with listed | isRoot | passedOn
    · rcases first.origin name listed with listed | isRoot | ⟨path, pathListed, passesOn⟩
      · exact .inl listed
      · exact .inr (.inl (List.mem_append_left _ isRoot))
      · exact .inr (.inr ⟨path, second.subset pathListed, passesOn⟩)
    · exact .inr (.inl (List.mem_append_right _ isRoot))
    · exact .inr (.inr passedOn)

/-- Roots that a listed namespace hands the look-up on to need not be mentioned. -/
theorem absorb
    {path : String}
    (extend : index.Extends roots before after)
    (listed : path ∈ after.listed)
    (passedOn : ∀ name ∈ roots, name = path ∨ index.PassesOn path name) :
    index.Extends [path] before after where
  subset := extend.subset
  origin name member := by
    rcases extend.origin name member with listedBefore | isRoot | fromListed
    · exact .inl listedBefore
    · rcases passedOn name isRoot with rfl | passesOn
      · exact .inr (.inl List.mem_cons_self)
      · exact .inr (.inr ⟨path, listed, passesOn⟩)
    · exact .inr (.inr fromListed)

/-- Listing several names in turn lists all of them as roots. -/
theorem foldl
    {list : Walk → String → Walk}
    (each : ∀ walk path, index.Extends [path] walk (list walk path))
    (names : List String)
    (walk : Walk) :
    index.Extends names walk (names.foldl list walk) := by
  induction names generalizing walk with
  | nil =>
      exact .of_listed_eq rfl
  | cons name rest inductionHypothesis =>
      exact (each walk name).trans (inductionHypothesis (list walk name))

end Extends

/-- A namespace is listed with its mixins. -/
theorem mem_listed_listWithMixins
    {list : Walk → String → Walk}
    (each : ∀ walk path, index.Extends [path] walk (list walk path))
    (walk : Walk)
    (path : String) :
    path ∈ (index.listWithMixins list walk path).listed := by
  refine (Extends.foldl each _ _).subset ?_
  exact List.mem_append_right _ List.mem_cons_self

/-- Whatever is listed with a namespace is a mixin of a listed one. -/
theorem extends_listWithMixins
    {list : Walk → String → Walk}
    (each : ∀ walk path, index.Extends [path] walk (list walk path))
    (walk : Walk)
    (path : String) :
    index.Extends [path] walk (index.listWithMixins list walk path) := by
  have entered : index.Extends [] walk { walk with visited := path :: walk.visited } :=
    .of_listed_eq rfl
  have prepended :=
    Extends.foldl each (index.mixins path .prepending).reverse
      { walk with visited := path :: walk.visited }
  have included := fun walk => Extends.foldl each (index.mixins path .inclusion).reverse walk
  have itself :
      ∀ walk : Walk, index.Extends [path] walk { walk with listed := walk.listed ++ [path] } :=
    fun walk =>
      { subset := List.subset_append_left walk.listed [path]
        origin := fun name member => (List.mem_append.mp member).imp_right .inl }
  refine (((entered.trans prepended).trans (itself _)).trans (included _)).absorb
    (mem_listed_listWithMixins each walk path) ?_
  intro name member
  rcases List.mem_append.mp member with member | isIncluded
  · rcases List.mem_append.mp member with isPrepended | isItself
    · exact .inr (.inl (List.mem_reverse.mp isPrepended))
    · exact .inl (List.mem_singleton.mp isItself)
  · exact .inr (.inr (.inl (List.mem_reverse.mp isIncluded)))

/-- Whatever is listed with a module is a mixin of a listed one. -/
theorem extends_listModule
    (limit : Nat)
    (walk : Walk)
    (path : String) :
    index.Extends [path] walk (index.listModule limit walk path) := by
  induction limit generalizing walk path with
  | zero =>
      exact .of_listed_eq rfl
  | succ limit inductionHypothesis =>
      unfold listModule
      split
      · exact .of_listed_eq rfl
      · exact extends_listWithMixins inductionHypothesis walk path

/-- Whatever is listed with a namespace is a mixin or a superclass of a listed one. -/
theorem extends_listAncestors
    (limit : Nat)
    (walk : Walk)
    (path : String) :
    index.Extends [path] walk (index.listAncestors limit walk path) := by
  induction limit generalizing walk path with
  | zero =>
      exact .of_listed_eq rfl
  | succ limit inductionHypothesis =>
      have modules := @extends_listModule index index.walkLimit
      have itself := extends_listWithMixins modules walk path
      have listed := mem_listed_listWithMixins modules walk path
      unfold listAncestors
      split
      · exact .of_listed_eq rfl
      · dsimp only
        split
        · next superclass isSuperclass =>
            have beyond := inductionHypothesis
              (index.listWithMixins (index.listModule index.walkLimit) walk path) superclass
            refine (itself.trans beyond).absorb (beyond.subset listed) ?_
            intro name member
            rcases List.mem_append.mp member with isItself | isBeyond
            · exact .inl (List.mem_singleton.mp isItself)
            · rw [List.mem_singleton.mp isBeyond]
              exact .inr (.inr (.inr isSuperclass))
        · exact itself

/-- A namespace is among its own ancestors. -/
theorem self_mem_ancestors
    (index : Index)
    (path : String) :
    path ∈ index.ancestors path := by
  have modules := @extends_listModule index index.walkLimit
  have listed := mem_listed_listWithMixins modules ⟨[], []⟩ path
  unfold ancestors walkLimit listAncestors
  simp only [List.not_mem_nil, if_false]
  split
  · exact (extends_listAncestors _ _ _).subset listed
  · exact listed

/-- Every other ancestor is what an ancestor hands the look-up on to. -/
theorem eq_or_passesOn_of_mem_ancestors
    {path name : String}
    (member : name ∈ index.ancestors path) :
    name = path ∨ ∃ ancestor ∈ index.ancestors path, index.PassesOn ancestor name := by
  rcases (extends_listAncestors index.walkLimit ⟨[], []⟩ path).origin name member with
    impossible | isRoot | passedOn
  · cases impossible
  · exact .inl (List.mem_singleton.mp isRoot)
  · exact .inr passedOn

end TagCheck.Index
