import TagCheck.Proofs.Index.ClassSide
import TagCheck.Proofs.Index.MethodLookup

namespace TagCheck.Index

/-!
# What overrides a method

All methods of one name that are looked up along with a method stand in a row, the method itself
among them.  In front of it stand exactly the methods that override it: later definitions of the
same namespace, and instance methods of the modules that are prepended to the namespace or mixed in
by these.  None of them comes again behind the method.
-/

/--
A module is looked up in front of a namespace: it is prepended to it, or mixed in by a module in
front of it.
-/
inductive IsPrepended (index : Index) (path : String) : String → Prop
  | called {name : String} (isModule : name ∈ index.mixins path .prepending)
      (isOther : name ≠ path) : IsPrepended index path name
  | mixed {inFront name : String} (isPrepended : IsPrepended index path inFront)
      (mixes : index.Mixes inFront name) (isOther : name ≠ path) : IsPrepended index path name

/--
A method overrides another one of its name: it is defined later for the same namespace and level, or
as an instance method of a module in front of the namespace.
-/
inductive Overrides (index : Index) (pin method : Pin) : Prop
  | redefines (sameName : pin.name = method.name) (sameKey : methodKey? pin = methodKey? method)
      (isLater : [method, pin].Sublist index.pins)
  | prepended {path owner : String} (sameName : pin.name = method.name)
      (isInstance : methodKey? method = some (path, .instanceLevel))
      (owned : methodKey? pin = some (owner, .instanceLevel))
      (isPrepended : index.IsPrepended path owner)

section Prepending

variable {index : Index}

/-- Listed ancestors are new, each of them once. -/
theorem ListsAncestors.meets
    {walk after : Walk}
    {path : String}
    (lists : index.ListsAncestors walk path after) :
    ∃ met, Meets index.PassesOn [path] walk met after := by
  induction lists with
  | again visited =>
      refine ⟨[], .nothing ?_⟩
      intro root isRoot
      rwa [List.mem_singleton.mp isRoot]
  | last _ itself _ =>
      obtain ⟨met, meets, -⟩ := itself.exists_meets
      exact ⟨met, meets.mono fun _ _ => Mixes.passesOn⟩
  | further _ itself isSuperclass _ inductionHypothesis =>
      obtain ⟨met, meets, -⟩ := itself.exists_meets
      obtain ⟨more, beyond⟩ := inductionHypothesis
      have both := (meets.mono fun _ _ => Mixes.passesOn).append beyond
      refine ⟨met ++ more, both.reroot ?_ ?_⟩
      · intro root isRoot
        rcases List.mem_cons.mp isRoot with rfl | isSuper
        · exact .refl
        · rw [List.mem_singleton.mp isSuper]
          exact .single (.inr (.inr isSuperclass))
      · exact beyond.visited_subset (meets.roots_visited _ List.mem_cons_self)

/-- Around a namespace that was met before, only names of a kind that mixes in itself are listed. -/
theorem ListsModules.mem_listed
    {isKind : String → Prop}
    {path : String}
    (mixesKind : ∀ other name, isKind other → index.Mixes other name → name = path ∨ isKind name)
    {walk after : Walk}
    {names : List String}
    (lists : index.ListsModules walk names after)
    (visited : path ∈ walk.visited)
    (areKind : ∀ name ∈ names, name = path ∨ isKind name)
    {name : String}
    (member : name ∈ after.listed) :
    name ∈ walk.listed ∨ isKind name := by
  induction lists with
  | done =>
      exact .inl member
  | again _ _ inductionHypothesis =>
      exact inductionHypothesis visited (fun other isOther =>
        areKind other (List.mem_cons_of_mem _ isOther)) member
  | @entered walk before behind after root rest unvisited prepended included further
      inFront inBehind beyond =>
      have rootIsKind : isKind root :=
        (areKind root List.mem_cons_self).resolve_left fun isPath => unvisited (isPath ▸ visited)
      obtain ⟨met, prepending, -⟩ := prepended.exists_meets
      obtain ⟨more, including, -⟩ := included.exists_meets
      have visitedBefore : path ∈ before.visited :=
        prepending.visited_subset (List.mem_cons_of_mem root visited)
      rcases beyond (including.visited_subset visitedBefore)
          (fun other isOther => areKind other (List.mem_cons_of_mem _ isOther)) member with
        isBehind | isKind
      · rcases inBehind visitedBefore (fun other isMixin =>
            mixesKind root other rootIsKind (.inr (List.mem_reverse.mp isMixin))) isBehind with
          isListed | isKind
        · rcases List.mem_append.mp isListed with isBefore | isRoot
          · exact inFront (List.mem_cons_of_mem root visited) (fun other isMixin =>
              mixesKind root other rootIsKind (.inl (List.mem_reverse.mp isMixin))) isBefore
          · exact .inr (List.mem_singleton.mp isRoot ▸ rootIsKind)
        · exact .inr isKind
      · exact .inr isKind

/-- The walk around a namespace lists exactly the modules in front of it before itself. -/
theorem ListsModules.mem_listed_iff_isPrepended
    {path name : String}
    {before : Walk}
    (lists :
      index.ListsModules ⟨[path], []⟩ (index.mixins path .prepending).reverse before) :
    name ∈ before.listed ↔ index.IsPrepended path name := by
  obtain ⟨met, meets, closed⟩ := lists.exists_meets
  have listed_eq : before.listed = met := meets.listed_eq
  have metOrPath : ∀ other ∈ before.visited, other ≠ path → other ∈ met := by
    intro other visited isOther
    refine ((meets.visited_iff other).mp visited).resolve_left ?_
    exact fun isPath => isOther (List.mem_singleton.mp isPath)
  constructor
  · intro member
    have impossible : name ∉ ([] : List String) := List.not_mem_nil
    refine (lists.mem_listed ?_ List.mem_cons_self ?_ member).resolve_left impossible
    · intro inFront other isPrepended mixes
      by_cases isPath : other = path
      · exact .inl isPath
      · exact .inr (.mixed isPrepended mixes isPath)
    · intro other isCalled
      by_cases isPath : other = path
      · exact .inl isPath
      · exact .inr (.called (List.mem_reverse.mp isCalled) isPath)
  · intro isPrepended
    rw [listed_eq]
    induction isPrepended with
    | called isModule isOther =>
        exact metOrPath _ (meets.roots_visited _ (List.mem_reverse.mpr isModule)) isOther
    | mixed _ mixes isOther inductionHypothesis =>
        exact metOrPath _ (closed _ inductionHypothesis _ mixes) isOther

/-- What is listed first stands around the namespace that a walk begins with. -/
theorem ListsModules.listed_eq_append
    {path : String}
    {after : Walk}
    (lists : index.ListsModules ⟨[], []⟩ [path] after) :
    ∃ inFront behind, after.listed = inFront ++ path :: behind ∧
      ∀ name, name ∈ inFront ↔ index.IsPrepended path name := by
  cases lists with
  | again visited _ =>
      cases visited
  | @entered _ before _ _ _ _ _ prepended included done =>
      cases done
      obtain ⟨more, meets, -⟩ := included.exists_meets
      refine ⟨before.listed, more, ?_, fun name => prepended.mem_listed_iff_isPrepended⟩
      rw [meets.listed_eq, List.append_assoc, List.singleton_append]

theorem ListsAncestors.listed_eq_append
    {path : String}
    {after : Walk}
    (lists : index.ListsAncestors ⟨[], []⟩ path after) :
    ∃ inFront behind, after.listed = inFront ++ path :: behind ∧
      ∀ name, name ∈ inFront ↔ index.IsPrepended path name := by
  cases lists with
  | again visited =>
      cases visited
  | last _ itself _ =>
      exact itself.listed_eq_append
  | further _ itself _ beyond =>
      obtain ⟨inFront, behind, listed_eq, mem_iff⟩ := itself.listed_eq_append
      obtain ⟨more, meets⟩ := beyond.meets
      refine ⟨inFront, behind ++ more, ?_, mem_iff⟩
      rw [meets.listed_eq, listed_eq, List.append_assoc, List.cons_append]

/-- A namespace stands once among its ancestors, behind exactly the modules in front of it. -/
theorem IsListed.ancestors_eq_append
    (listed : index.IsListed)
    (path : String) :
    ∃ inFront behind, index.ancestors path = inFront ++ path :: behind ∧
      (inFront ++ path :: behind).Nodup ∧ ∀ name, name ∈ inFront ↔ index.IsPrepended path name := by
  have lists := listed.listsAncestors path
  obtain ⟨inFront, behind, listed_eq, mem_iff⟩ := lists.listed_eq_append
  obtain ⟨met, meets⟩ := lists.meets
  refine ⟨inFront, behind, listed_eq, ?_, mem_iff⟩
  rw [← listed_eq, meets.listed_eq]
  exact meets.nodup

theorem IsPrepended.ne
    {path name : String}
    (isPrepended : index.IsPrepended path name) :
    name ≠ path := by
  cases isPrepended with
  | called _ isOther =>
      exact isOther
  | mixed _ _ isOther =>
      exact isOther

/-- Where nothing is prepended, nothing is looked up in front. -/
theorem not_isPrepended
    {path name : String}
    (nothing : index.mixins path .prepending = []) :
    ¬index.IsPrepended path name := by
  intro isPrepended
  induction isPrepended with
  | called isModule _ =>
      rw [nothing] at isModule
      cases isModule
  | mixed _ _ _ inductionHypothesis =>
      exact inductionHypothesis

end Prepending

section Rows

variable {index : Index}

/-- A chain of classes avoids those that were visited. -/
theorem notMem_visited_of_mem_superclassChain
    {limit : Nat}
    {visited : List String}
    {path name : String}
    (member : name ∈ index.superclassChain limit visited path) :
    name ∉ visited := by
  induction limit generalizing visited path with
  | zero =>
      cases member
  | succ limit inductionHypothesis =>
      obtain ⟨isNew, rfl | ⟨superclass, -, further⟩⟩ := mem_superclassChain_succ.mp member
      · exact isNew
      · exact fun isVisited => inductionHypothesis further (List.mem_cons_of_mem path isVisited)

/-- A chain of classes begins with its class, which does not come again. -/
theorem exists_superclassChain_eq_cons
    (path : String) :
    ∃ superclasses, index.superclassChain index.walkLimit [] path = path :: superclasses ∧
      path ∉ superclasses := by
  unfold walkLimit superclassChain
  rw [if_neg List.not_mem_nil]
  split
  · refine ⟨_, rfl, fun member => ?_⟩
    exact notMem_visited_of_mem_superclassChain member List.mem_cons_self
  · exact ⟨[], rfl, List.not_mem_nil⟩

/-- In the look-up of instance methods a namespace comes once, behind the modules in front of it. -/
theorem IsListed.instanceSources_eq_append
    (listed : index.IsListed)
    (path : String) :
    ∃ inFront behind, index.methodSources path .instanceLevel =
        (inFront ++ path :: behind).map (·, .instanceLevel) ∧
      (∀ name ∈ behind, name ∉ inFront ∧ name ≠ path) ∧
        ∀ name, name ∈ inFront ↔ index.IsPrepended path name := by
  obtain ⟨inFront, behind, ancestors_eq, nodup, mem_iff⟩ := listed.ancestors_eq_append path
  obtain ⟨beyond, sources_eq, isBeyond⟩ :
      ∃ beyond, index.methodSources path .instanceLevel =
          (index.ancestors path ++ beyond).map (·, .instanceLevel) ∧
        ∀ name ∈ beyond, name ∉ index.ancestors path := by
    refine ⟨_, rfl, fun name member => ?_⟩
    split at member
    · simpa using (List.mem_filter.mp member).2
    · cases member
  obtain ⟨-, nodupBehind, apart⟩ := List.nodup_append.mp nodup
  refine ⟨inFront, behind ++ beyond, ?_, ?_, mem_iff⟩
  · rw [sources_eq, ancestors_eq, List.append_assoc, List.cons_append]
  · intro name member
    rcases List.mem_append.mp member with isBehind | isBeyondName
    · constructor
      · exact fun isInFront => apart name isInFront name (List.mem_cons_of_mem path isBehind) rfl
      · exact fun isPath => (List.nodup_cons.mp nodupBehind).1 (isPath ▸ isBehind)
    · have notAncestor := isBeyond name isBeyondName
      rw [ancestors_eq, List.mem_append, List.mem_cons, not_or, not_or] at notAncestor
      exact ⟨notAncestor.1, notAncestor.2.1⟩

/-- In the look-up of class methods a namespace comes first, and not again. -/
theorem IsListed.classSources_eq_cons
    (listed : index.IsListed)
    (path : String) :
    ∃ behind, index.methodSources path .classLevel = (path, .classLevel) :: behind ∧
      (path, .classLevel) ∉ behind := by
  obtain ⟨superclasses, chain_eq, notAgain⟩ := @exists_superclassChain_eq_cons index path
  obtain ⟨extensions, metaclasses, sources_eq⟩ :
      ∃ extensions metaclasses : List String,
        index.methodSources path .classLevel = (path, .classLevel) ::
          (extensions.map (·, .instanceLevel) ++ superclasses.flatMap index.classLevelSources ++
            metaclasses.map (·, .instanceLevel)) := by
    rw [methodSources, chain_eq, List.flatMap_cons, classLevelSources]
    exact ⟨_, _, rfl⟩
  refine ⟨_, sources_eq, fun member => ?_⟩
  -- Behind the namespace, the level of classes is met for its superclasses alone.
  have isSuper : (path, .classLevel) ∈ superclasses.flatMap index.classLevelSources := by
    simpa using member
  obtain ⟨superclass, isSuperclass, isSource⟩ := List.mem_flatMap.mp isSuper
  rcases listed.mem_classLevelSources.mp isSource with ⟨rfl, -⟩ | ⟨isInstance, -⟩
  · exact notAgain isSuperclass
  · cases isInstance

/--
In the look-up of methods a namespace itself comes once, and what comes in front of it are instance
methods of the modules in front of it.
-/
theorem IsListed.methodSources_eq_append
    (listed : index.IsListed)
    (path : String)
    (scope : Scope) :
    ∃ inFront behind, index.methodSources path scope = inFront ++ (path, scope) :: behind ∧
      (∀ source ∈ behind, source ∉ inFront ∧ source ≠ (path, scope)) ∧
      ∀ owner level, (owner, level) ∈ inFront ↔
        scope = .instanceLevel ∧ level = .instanceLevel ∧ index.IsPrepended path owner := by
  cases scope with
  | instanceLevel =>
      obtain ⟨inFront, behind, sources_eq, behindOnly, mem_iff⟩ :=
        listed.instanceSources_eq_append path
      rw [List.map_append, List.map_cons] at sources_eq
      refine ⟨_, _, sources_eq, ?_, ?_⟩
      · intro source member
        obtain ⟨name, isName, rfl⟩ := List.mem_map.mp member
        simpa using behindOnly name isName
      · intro owner level
        rw [List.mem_map, ← mem_iff]
        constructor
        · rintro ⟨name, isInFront, isSource⟩
          cases isSource
          exact ⟨rfl, rfl, isInFront⟩
        · rintro ⟨-, rfl, isInFront⟩
          exact ⟨owner, isInFront, rfl⟩
  | classLevel =>
      obtain ⟨behind, sources_eq, notAgain⟩ := listed.classSources_eq_cons path
      refine ⟨[], behind, sources_eq, ?_, ?_⟩
      · intro source member
        exact ⟨List.not_mem_nil, fun isPath => notAgain (isPath ▸ member)⟩
      · intro owner level
        simp

/-- The methods of a name that a namespace itself has on a level, the last one first. -/
def ownStack (index : Index) (name : String) (source : String × Scope) : List Pin :=
  (index.ownMethods source.1 source.2).reverse.filter (·.name = name)

theorem IsListed.mem_ownStack
    (listed : index.IsListed)
    {name : String}
    {source : String × Scope}
    {pin : Pin} :
    pin ∈ index.ownStack name source ↔
      pin ∈ index.pins ∧ methodKey? pin = some source ∧ pin.name = name := by
  rw [ownStack, List.mem_filter, List.mem_reverse, listed.mem_ownMethods, decide_eq_true_iff,
    and_assoc]

/-- A row of methods has all methods of a name that belong to its namespaces and levels. -/
theorem IsListed.mem_row_iff
    (listed : index.IsListed)
    {name : String}
    {sources : List (String × Scope)}
    {pin : Pin} :
    pin ∈ sources.flatMap (index.ownStack name) ↔
      pin ∈ index.pins ∧ pin.name = name ∧ ∃ source ∈ sources, methodKey? pin = some source := by
  simp only [List.mem_flatMap, listed.mem_ownStack]
  constructor
  · rintro ⟨source, isSource, declared, owned, sameName⟩
    exact ⟨declared, sameName, source, isSource, owned⟩
  · rintro ⟨declared, sameName, source, isSource, owned⟩
    exact ⟨source, isSource, declared, owned, sameName⟩

theorem IsListed.mem_of_mem_row
    (listed : index.IsListed)
    {name : String}
    {sources : List (String × Scope)}
    {pin : Pin}
    {source : String × Scope}
    (member : pin ∈ sources.flatMap (index.ownStack name))
    (owned : methodKey? pin = some source) :
    source ∈ sources := by
  obtain ⟨-, -, other, isSource, ofOther⟩ := listed.mem_row_iff.mp member
  cases owned.symm.trans ofOther
  exact isSource

/-- The methods of a namespace stand in the order of all pins, the last one first. -/
theorem IsListed.ownStack_eq_append
    (listed : index.IsListed)
    {method : Pin}
    {source : String × Scope}
    {earlier later : List Pin}
    (isMethod : methodKey? method = some source)
    (pins_eq : index.pins = earlier ++ method :: later) :
    ∃ overriding overridden,
      index.ownStack method.name source = overriding ++ method :: overridden ∧
        (∀ pin, pin ∈ overriding ↔
          pin ∈ later ∧ methodKey? pin = some source ∧ pin.name = method.name) ∧
        ∀ pin ∈ overridden, pin ∈ earlier ∧ methodKey? pin = some source := by
  have own_eq : index.ownMethods source.1 source.2 =
      index.pins.filter fun pin => methodKey? pin = some source := by
    rw [listed]
    rfl
  have split_eq : index.ownStack method.name source =
      (later.filter fun pin => methodKey? pin = some source).reverse.filter
          (·.name = method.name) ++
        method :: (earlier.filter fun pin => methodKey? pin = some source).reverse.filter
          (·.name = method.name) := by
    rw [ownStack, own_eq, pins_eq]
    simp [isMethod]
  refine ⟨_, _, split_eq, ?_, ?_⟩
  · intro pin
    rw [List.mem_filter, List.mem_reverse, List.mem_filter, decide_eq_true_iff, decide_eq_true_iff,
      and_assoc]
  · intro pin member
    have inFilter := List.mem_reverse.mp (List.mem_of_mem_filter member)
    rwa [List.mem_filter, decide_eq_true_iff] at inFilter

/-- What stands behind the only place of an item stands behind the item. -/
theorem pair_sublist_append_cons_iff
    {Item : Type}
    {first second : Item}
    {before after : List Item}
    (notBefore : first ∉ before) :
    [first, second].Sublist (before ++ first :: after) ↔ second ∈ after := by
  induction before with
  | nil =>
      rw [List.nil_append, List.cons_sublist_cons, List.singleton_sublist]
  | cons head rest inductionHypothesis =>
      rw [List.mem_cons, not_or] at notBefore
      rw [List.cons_append, List.sublist_cons_iff, inductionHypothesis notBefore.2]
      refine or_iff_left ?_
      rintro ⟨others, sameList, -⟩
      exact notBefore.1 (List.cons.inj sameList).1

/--
Every method stands in its own row, behind exactly the methods that override it, and none of them
comes again behind it.
-/
theorem IsListed.overridden_eq_append
    (listed : index.IsListed)
    (nodup : index.pins.Nodup)
    {method : Pin}
    {path : String}
    {scope : Scope}
    (member : method ∈ index.pins)
    (isMethod : methodKey? method = some (path, scope)) :
    ∃ overriding overridden,
      index.methodStack path method.name scope = overriding ++ method :: overridden ∧
        method ∉ overriding ∧ (∀ pin ∈ overridden, pin ∉ overriding) ∧
          ∀ pin, pin ∈ overriding ↔ pin ∈ index.pins ∧ index.Overrides pin method := by
  obtain ⟨inFront, behind, sources_eq, behindOnly, mem_inFront⟩ :=
    listed.methodSources_eq_append path scope
  obtain ⟨earlier, later, pins_eq⟩ := List.mem_iff_append.mp member
  obtain ⟨redefining, redefined, own_eq, mem_redefining, mem_redefined⟩ :=
    listed.ownStack_eq_append isMethod pins_eq
  have notInFront : (path, scope) ∉ inFront := by
    intro isInFront
    exact ((mem_inFront path scope).mp isInFront).2.2.ne rfl
  rw [pins_eq] at nodup
  obtain ⟨-, nodupLater, apart⟩ := List.nodup_append.mp nodup
  have notEarlier : method ∉ earlier := fun isEarlier => apart method isEarlier method
    List.mem_cons_self rfl
  have later_iff : ∀ pin, [method, pin].Sublist index.pins ↔ pin ∈ later := by
    intro pin
    rw [pins_eq]
    exact pair_sublist_append_cons_iff notEarlier
  refine ⟨inFront.flatMap (index.ownStack method.name) ++ redefining,
    redefined ++ behind.flatMap (index.ownStack method.name), ?_, ?_, ?_, ?_⟩
  · calc index.methodStack path method.name scope
        = (inFront ++ (path, scope) :: behind).flatMap (index.ownStack method.name) := by
          rw [← sources_eq]
          rfl
      _ = _ := by
          rw [List.flatMap_append, List.flatMap_cons, own_eq]
          simp only [List.append_assoc, List.cons_append]
  · intro overriding
    rcases List.mem_append.mp overriding with isModule | isRedefining
    · exact notInFront (listed.mem_of_mem_row isModule isMethod)
    · exact (List.nodup_cons.mp nodupLater).1 ((mem_redefining method).mp isRedefining).1
  · intro pin overridden overriding
    rcases List.mem_append.mp overridden with isRedefined | isBehind <;>
      rcases List.mem_append.mp overriding with isModule | isRedefining
    · exact notInFront (listed.mem_of_mem_row isModule (mem_redefined pin isRedefined).2)
    · have isLater := ((mem_redefining pin).mp isRedefining).1
      exact apart pin (mem_redefined pin isRedefined).1 pin (List.mem_cons_of_mem method isLater) rfl
    · obtain ⟨-, -, source, isSource, owned⟩ := listed.mem_row_iff.mp isBehind
      exact (behindOnly source isSource).1 (listed.mem_of_mem_row isModule owned)
    · have owned := ((mem_redefining pin).mp isRedefining).2.1
      exact (behindOnly _ (listed.mem_of_mem_row isBehind owned)).2 rfl
  · intro pin
    constructor
    · intro overriding
      rcases List.mem_append.mp overriding with isModule | isRedefining
      · obtain ⟨declared, sameName, ⟨owner, level⟩, isSource, owned⟩ :=
          listed.mem_row_iff.mp isModule
        obtain ⟨rfl, rfl, isPrepended⟩ := (mem_inFront owner level).mp isSource
        exact ⟨declared, .prepended sameName isMethod owned isPrepended⟩
      · obtain ⟨isLater, owned, sameName⟩ := (mem_redefining pin).mp isRedefining
        refine ⟨?_, .redefines sameName (owned.trans isMethod.symm) ((later_iff pin).mpr isLater)⟩
        rw [pins_eq]
        exact List.mem_append_right earlier (List.mem_cons_of_mem method isLater)
    · rintro ⟨declared, overrides⟩
      cases overrides with
      | redefines sameName sameKey isLater =>
          refine List.mem_append_right _ ((mem_redefining pin).mpr ?_)
          exact ⟨(later_iff pin).mp isLater, sameKey.trans isMethod, sameName⟩
      | @prepended _ owner sameName isInstance owned isPrepended =>
          cases isMethod.symm.trans isInstance
          have isSource := (mem_inFront owner .instanceLevel).mpr ⟨rfl, rfl, isPrepended⟩
          exact List.mem_append_left _
            (listed.mem_row_iff.mpr ⟨declared, sameName, (owner, .instanceLevel), isSource, owned⟩)

theorem overridden_of_methodKey?
    {method : Pin}
    {path : String}
    {scope : Scope}
    (isMethod : methodKey? method = some (path, scope)) :
    index.overridden method = index.methodStack path method.name scope := by
  unfold methodKey? at isMethod
  split at isMethod
  · next detail isKind =>
      cases isMethod
      rw [overridden, PinOf.scope, isKind]
  · cases isMethod

/-- The methods that are looked up along with a method. -/
theorem IsListed.mem_methodStack
    (listed : index.IsListed)
    {path name : String}
    {scope : Scope}
    {pin : Pin} :
    pin ∈ index.methodStack path name scope ↔
      pin ∈ index.pins ∧ pin.name = name ∧
        ∃ source ∈ index.methodSources path scope, methodKey? pin = some source :=
  listed.mem_row_iff

end Rows

end TagCheck.Index
