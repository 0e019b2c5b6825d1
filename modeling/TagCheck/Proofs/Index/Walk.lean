import Mathlib.Data.Finset.Card
import Mathlib.Logic.Relation
import TagCheck.Proofs.Index.Ancestry

namespace TagCheck

open Relation (ReflTransGen)

namespace Index

/-!
# How a walk over ancestors goes on

Walks without a limit are described by the two relations `ListsModules` and `ListsAncestors`, which
relate the walk before a name to the walk behind it.  What is listed is new, and all that it mixes
in has been met.  A limited walk is one of these as long as every name that it can still meet could
take a step.
-/

/-- A namespace mixes a module in, before or behind itself. -/
def Mixes (index : Index) (path name : String) : Prop :=
  name ∈ index.mixins path .prepending ∨ name ∈ index.mixins path .inclusion

/-- No name that is mixed in has a superclass. -/
def MixesModulesOnly (index : Index) : Prop :=
  ∀ path name, index.Mixes path name → index.superclassOf? name = none

/-- Listing modules one after another ends with a walk, without any limit. -/
inductive ListsModules (index : Index) : Walk → List String → Walk → Prop
  | done {walk : Walk} : ListsModules index walk [] walk
  | again {walk after : Walk} {path : String} {rest : List String}
      (visited : path ∈ walk.visited) (further : ListsModules index walk rest after) :
      ListsModules index walk (path :: rest) after
  | entered {walk before behind after : Walk} {path : String} {rest : List String}
      (unvisited : path ∉ walk.visited)
      (prepended :
        ListsModules index { walk with visited := path :: walk.visited }
          (index.mixins path .prepending).reverse before)
      (included :
        ListsModules index { before with listed := before.listed ++ [path] }
          (index.mixins path .inclusion).reverse behind)
      (further : ListsModules index behind rest after) :
      ListsModules index walk (path :: rest) after

/-- Listing a namespace and its superclasses ends with a walk, without any limit. -/
inductive ListsAncestors (index : Index) : Walk → String → Walk → Prop
  | again {walk : Walk} {path : String} (visited : path ∈ walk.visited) :
      ListsAncestors index walk path walk
  | last {walk after : Walk} {path : String} (unvisited : path ∉ walk.visited)
      (itself : index.ListsModules walk [path] after) (isLast : index.superclassOf? path = none) :
      ListsAncestors index walk path after
  | further {walk middle after : Walk} {path superclass : String}
      (unvisited : path ∉ walk.visited) (itself : index.ListsModules walk [path] middle)
      (isSuperclass : index.superclassOf? path = some superclass)
      (beyond : ListsAncestors index middle superclass after) :
      ListsAncestors index walk path after

/-- A walk meets further names from some roots on, following steps, and lists them behind. -/
structure Meets (step : String → String → Prop) (roots : List String) (before : Walk)
    (met : List String) (after : Walk) : Prop where
  nodup : met.Nodup
  unvisited : ∀ name ∈ met, name ∉ before.visited
  listed_eq : after.listed = before.listed ++ met
  visited_iff : ∀ name, name ∈ after.visited ↔ name ∈ before.visited ∨ name ∈ met
  roots_visited : ∀ root ∈ roots, root ∈ after.visited
  reached : ∀ name ∈ met, ∃ root ∈ roots, ReflTransGen step root name

/-- Every step from some names leads to a name that the walk has met. -/
def Closes (step : String → String → Prop) (met : List String) (walk : Walk) : Prop :=
  ∀ name ∈ met, ∀ next, step name next → next ∈ walk.visited

namespace Meets

variable {step : String → String → Prop} {roots others met more : List String}
  {before middle after : Walk}

theorem visited_subset
    (meets : Meets step roots before met after) :
    before.visited ⊆ after.visited := by
  intro name visited
  exact (meets.visited_iff name).mpr (.inl visited)

theorem met_visited
    (meets : Meets step roots before met after) :
    met ⊆ after.visited := by
  intro name isMet
  exact (meets.visited_iff name).mpr (.inr isMet)

/-- A walk that stands still has met its roots before. -/
theorem nothing
    (visited : ∀ root ∈ roots, root ∈ before.visited) :
    Meets step roots before [] before where
  nodup := List.nodup_nil
  unvisited := nofun
  listed_eq := (List.append_nil before.listed).symm
  visited_iff := by
    intro name
    simp
  roots_visited := visited
  reached := nofun

/-- Two parts of a walk meet the names of both, and none of them twice. -/
theorem append
    (first : Meets step roots before met middle)
    (second : Meets step others middle more after) :
    Meets step (roots ++ others) before (met ++ more) after where
  nodup := by
    refine List.nodup_append.mpr ⟨first.nodup, second.nodup, ?_⟩
    rintro name isMet other isMore rfl
    exact second.unvisited name isMore (first.met_visited isMet)
  unvisited := by
    intro name member visited
    rcases List.mem_append.mp member with isMet | isMore
    · exact first.unvisited name isMet visited
    · exact second.unvisited name isMore (first.visited_subset visited)
  listed_eq := by
    rw [second.listed_eq, first.listed_eq, List.append_assoc]
  visited_iff := by
    intro name
    rw [second.visited_iff, first.visited_iff, List.mem_append, or_assoc]
  roots_visited := by
    intro root member
    rcases List.mem_append.mp member with isRoot | isOther
    · exact second.visited_subset (first.roots_visited root isRoot)
    · exact second.roots_visited root isOther
  reached := by
    intro name member
    rcases List.mem_append.mp member with isMet | isMore
    · obtain ⟨root, isRoot, reaches⟩ := first.reached name isMet
      exact ⟨root, List.mem_append_left others isRoot, reaches⟩
    · obtain ⟨root, isOther, reaches⟩ := second.reached name isMore
      exact ⟨root, List.mem_append_right roots isOther, reaches⟩

/-- Roots that another visited name reaches give way to it. -/
theorem reroot
    {path : String}
    (meets : Meets step roots before met after)
    (reaches : ∀ root ∈ roots, ReflTransGen step path root)
    (visited : path ∈ after.visited) :
    Meets step [path] before met after where
  nodup := meets.nodup
  unvisited := meets.unvisited
  listed_eq := meets.listed_eq
  visited_iff := meets.visited_iff
  roots_visited := by
    intro root isRoot
    rwa [List.mem_singleton.mp isRoot]
  reached := by
    intro name isMet
    obtain ⟨root, isRoot, fromRoot⟩ := meets.reached name isMet
    exact ⟨path, List.mem_singleton_self path, (reaches root isRoot).trans fromRoot⟩

theorem mono
    {wider : String → String → Prop}
    (meets : Meets step roots before met after)
    (widen : ∀ name next, step name next → wider name next) :
    Meets wider roots before met after where
  nodup := meets.nodup
  unvisited := meets.unvisited
  listed_eq := meets.listed_eq
  visited_iff := meets.visited_iff
  roots_visited := meets.roots_visited
  reached := by
    intro name isMet
    obtain ⟨root, isRoot, fromRoot⟩ := meets.reached name isMet
    exact ⟨root, isRoot, ReflTransGen.mono widen root name fromRoot⟩

end Meets

namespace Closes

variable {step : String → String → Prop} {met more : List String} {middle after : Walk}

theorem append
    (first : Closes step met middle)
    (second : Closes step more after)
    (subset : middle.visited ⊆ after.visited) :
    Closes step (met ++ more) after := by
  intro name member next isStep
  rcases List.mem_append.mp member with isMet | isMore
  · exact subset (first name isMet next isStep)
  · exact second name isMore next isStep

/-- From a root of a closed walk that began with nothing, exactly the listed names are reached. -/
theorem mem_listed_iff
    {root name : String}
    (closed : Closes step met after)
    (meets : Meets step [root] ⟨[], []⟩ met after) :
    name ∈ after.listed ↔ ReflTransGen step root name := by
  have listed_eq : after.listed = met := meets.listed_eq
  have mem_met_of_visited : ∀ other ∈ after.visited, other ∈ met := by
    intro other visited
    exact ((meets.visited_iff other).mp visited).resolve_left List.not_mem_nil
  rw [listed_eq]
  constructor
  · intro isMet
    obtain ⟨start, isRoot, reaches⟩ := meets.reached name isMet
    rwa [List.mem_singleton.mp isRoot] at reaches
  · intro reaches
    induction reaches with
    | refl =>
        exact mem_met_of_visited root (meets.roots_visited root List.mem_cons_self)
    | tail _ isStep inductionHypothesis =>
        exact mem_met_of_visited _ (closed _ inductionHypothesis _ isStep)

end Closes

section Listing

variable {index : Index}

/-- Listing a namespace between its mixins meets it together with what they meet. -/
theorem Meets.around
    {walk before behind : Walk}
    {path : String}
    {met more : List String}
    (unvisited : path ∉ walk.visited)
    (prepended :
      Meets index.Mixes (index.mixins path .prepending).reverse
        { walk with visited := path :: walk.visited } met before)
    (included :
      Meets index.Mixes (index.mixins path .inclusion).reverse
        { before with listed := before.listed ++ [path] } more behind) :
    Meets index.Mixes [path] walk (met ++ path :: more) behind := by
  have pathVisited : path ∈ before.visited := prepended.visited_subset List.mem_cons_self
  have unmet : path ∉ met := by
    intro isMet
    exact prepended.unvisited path isMet List.mem_cons_self
  -- The first part of the walk ends where the namespace itself is listed.
  have itself :
      Meets index.Mixes (path :: (index.mixins path .prepending).reverse) walk (met ++ [path])
        { before with listed := before.listed ++ [path] } :=
    { nodup := by
        rw [List.nodup_append_comm]
        exact List.nodup_cons.mpr ⟨unmet, prepended.nodup⟩
      unvisited := by
        intro name member visited
        rcases List.mem_append.mp member with isMet | isPath
        · exact prepended.unvisited name isMet (List.mem_cons_of_mem path visited)
        · rw [List.mem_singleton.mp isPath] at visited
          exact unvisited visited
      listed_eq := by
        rw [← List.append_assoc, ← prepended.listed_eq]
      visited_iff := by
        intro name
        rw [prepended.visited_iff, List.mem_cons, List.mem_append, List.mem_singleton]
        tauto
      roots_visited := by
        intro root isRoot
        rcases List.mem_cons.mp isRoot with rfl | isPrepended
        · exact pathVisited
        · exact prepended.roots_visited root isPrepended
      reached := by
        intro name member
        rcases List.mem_append.mp member with isMet | isPath
        · obtain ⟨root, isRoot, reaches⟩ := prepended.reached name isMet
          exact ⟨root, List.mem_cons_of_mem path isRoot, reaches⟩
        · rw [List.mem_singleton.mp isPath]
          exact ⟨path, List.mem_cons_self, .refl⟩ }
  have both := itself.append included
  rw [List.append_assoc, List.singleton_append] at both
  refine both.reroot ?_ (included.visited_subset pathVisited)
  intro root isRoot
  rcases List.mem_append.mp isRoot with isItself | isIncluded
  · rcases List.mem_cons.mp isItself with rfl | isPrepended
    · exact .refl
    · exact .single (.inl (List.mem_reverse.mp isPrepended))
  · exact .single (.inr (List.mem_reverse.mp isIncluded))

/-- Whatever a namespace and the names around it mix in has been met. -/
theorem Closes.around
    {before behind : Walk}
    {path : String}
    {met more : List String}
    (prepended : Closes index.Mixes met before)
    (included : Closes index.Mixes more behind)
    (subset : before.visited ⊆ behind.visited)
    (prependedVisited : ∀ name ∈ index.mixins path .prepending, name ∈ behind.visited)
    (includedVisited : ∀ name ∈ index.mixins path .inclusion, name ∈ behind.visited) :
    Closes index.Mixes (met ++ path :: more) behind := by
  refine prepended.append ?_ subset
  intro name member next mixes
  rcases List.mem_cons.mp member with rfl | isMore
  · rcases mixes with isPrepended | isIncluded
    · exact prependedVisited next isPrepended
    · exact includedVisited next isIncluded
  · exact included name isMore next mixes

/-- Listed modules are new, and everything that they mix in has been met. -/
theorem ListsModules.exists_meets
    {walk after : Walk}
    {names : List String}
    (lists : index.ListsModules walk names after) :
    ∃ met, Meets index.Mixes names walk met after ∧ Closes index.Mixes met after := by
  induction lists with
  | done =>
      exact ⟨[], .nothing nofun, nofun⟩
  | @again walk after path rest visited _ inductionHypothesis =>
      obtain ⟨met, meets, closed⟩ := inductionHypothesis
      have standing : Meets index.Mixes [path] walk [] walk := by
        refine .nothing ?_
        intro root isRoot
        rwa [List.mem_singleton.mp isRoot]
      exact ⟨met, standing.append meets, closed⟩
  | @entered walk before behind after path rest unvisited _ _ _ prepending including continuing =>
      obtain ⟨met, prepended, prependedClosed⟩ := prepending
      obtain ⟨more, included, includedClosed⟩ := including
      obtain ⟨others, further, furtherClosed⟩ := continuing
      have itself := Meets.around unvisited prepended included
      have itselfClosed : Closes index.Mixes (met ++ path :: more) behind := by
        refine prependedClosed.around includedClosed included.visited_subset ?_ ?_
        · intro name isPrepended
          have visited := prepended.roots_visited name (List.mem_reverse.mpr isPrepended)
          exact included.visited_subset visited
        · intro name isIncluded
          exact included.roots_visited name (List.mem_reverse.mpr isIncluded)
      exact ⟨_, itself.append further, itselfClosed.append furtherClosed further.visited_subset⟩

theorem eq_or_mixes_of_reflTransGen
    {path name : String}
    (reaches : ReflTransGen index.Mixes path name) :
    name = path ∨ ∃ other, index.Mixes other name := by
  rcases reaches.cases_tail with same | ⟨other, -, mixes⟩
  · exact .inl same
  · exact .inr ⟨other, mixes⟩

/-- From the names met with a namespace, only its own superclass leads on. -/
theorem mixes_or_superclass_of_meets
    {walk after : Walk}
    {path name next : String}
    {met : List String}
    (modulesOnly : index.MixesModulesOnly)
    (meets : Meets index.Mixes [path] walk met after)
    (isMet : name ∈ met)
    (passesOn : index.PassesOn name next) :
    index.Mixes name next ∨ index.superclassOf? path = some next := by
  rcases passesOn with isPrepended | isIncluded | isSuperclass
  · exact .inl (.inl isPrepended)
  · exact .inl (.inr isIncluded)
  · obtain ⟨root, isRoot, reaches⟩ := meets.reached name isMet
    rw [List.mem_singleton.mp isRoot] at reaches
    rcases eq_or_mixes_of_reflTransGen reaches with rfl | ⟨other, mixes⟩
    · exact .inr isSuperclass
    · rw [modulesOnly other name mixes] at isSuperclass
      cases isSuperclass

theorem Mixes.passesOn
    {path name : String}
    (mixes : index.Mixes path name) :
    index.PassesOn path name :=
  mixes.imp_right .inl

/-- Listed ancestors are new, and everything that the look-up goes on to has been met. -/
theorem ListsAncestors.exists_meets
    (modulesOnly : index.MixesModulesOnly)
    {walk after : Walk}
    {path : String}
    (lists : index.ListsAncestors walk path after) :
    ∃ met, Meets index.PassesOn [path] walk met after ∧ Closes index.PassesOn met after := by
  induction lists with
  | again visited =>
      refine ⟨[], .nothing ?_, nofun⟩
      intro root isRoot
      rwa [List.mem_singleton.mp isRoot]
  | last _ itself isLast =>
      obtain ⟨met, meets, closed⟩ := itself.exists_meets
      refine ⟨met, meets.mono fun _ _ => Mixes.passesOn, ?_⟩
      intro name isMet next passesOn
      rcases mixes_or_superclass_of_meets modulesOnly meets isMet passesOn with
        mixes | isSuperclass
      · exact closed name isMet next mixes
      · rw [isLast] at isSuperclass
        cases isSuperclass
  | @further walk middle after path superclass _ itself isSuperclass _ inductionHypothesis =>
      obtain ⟨met, meets, closed⟩ := itself.exists_meets
      obtain ⟨more, beyond, beyondClosed⟩ := inductionHypothesis
      have pathVisited : path ∈ middle.visited := meets.roots_visited path List.mem_cons_self
      refine ⟨met ++ more, ?_, ?_⟩
      · have both := (meets.mono fun _ _ => Mixes.passesOn).append beyond
        refine both.reroot ?_ (beyond.visited_subset pathVisited)
        intro root isRoot
        rcases List.mem_cons.mp isRoot with rfl | isSuper
        · exact .refl
        · rw [List.mem_singleton.mp isSuper]
          exact .single (.inr (.inr isSuperclass))
      · -- The names met before the superclass lead on to each other, and only the path beyond them.
        intro name member next passesOn
        rcases List.mem_append.mp member with isMet | isMore
        · rcases mixes_or_superclass_of_meets modulesOnly meets isMet passesOn with
            mixes | isNext
          · exact beyond.visited_subset (closed name isMet next mixes)
          · rw [isSuperclass] at isNext
            cases isNext
            exact beyond.roots_visited superclass List.mem_cons_self
        · exact beyondClosed name isMore next passesOn

end Listing

section Limits

variable {index : Index}

/-- The names of a domain that a walk has not met. -/
def unvisited (domain : Finset String) (visited : List String) : Finset String :=
  domain.filter (· ∉ visited)

theorem card_unvisited_le
    (domain : Finset String)
    {before after : List String}
    (subset : before ⊆ after) :
    (unvisited domain after).card ≤ (unvisited domain before).card := by
  refine Finset.card_le_card ?_
  intro name member
  obtain ⟨inDomain, notAfter⟩ := Finset.mem_filter.mp member
  refine Finset.mem_filter.mpr ⟨inDomain, ?_⟩
  intro inBefore
  exact notAfter (subset inBefore)

theorem card_unvisited_cons_lt
    {domain : Finset String}
    {visited : List String}
    {path : String}
    (inDomain : path ∈ domain)
    (isNew : path ∉ visited) :
    (unvisited domain (path :: visited)).card < (unvisited domain visited).card := by
  refine Finset.card_lt_card (Finset.ssubset_iff_subset_ne.mpr ⟨?_, ?_⟩)
  · intro name member
    obtain ⟨inDomain, notVisited⟩ := Finset.mem_filter.mp member
    refine Finset.mem_filter.mpr ⟨inDomain, ?_⟩
    intro visited
    exact notVisited (List.mem_cons_of_mem path visited)
  · intro same
    have member : path ∈ unvisited domain visited :=
      Finset.mem_filter.mpr ⟨inDomain, isNew⟩
    rw [← same] at member
    exact (Finset.mem_filter.mp member).2 List.mem_cons_self

/-- Nothing is left of a domain that has been met. -/
theorem visited_of_card_unvisited
    {domain : Finset String}
    {visited : List String}
    {path : String}
    (inDomain : path ∈ domain)
    (nothingLeft : (unvisited domain visited).card ≤ 0) :
    path ∈ visited := by
  have empty : unvisited domain visited = ∅ :=
    Finset.card_eq_zero.mp (Nat.le_zero.mp nothingLeft)
  by_contra isNew
  have member : path ∈ unvisited domain visited :=
    Finset.mem_filter.mpr ⟨inDomain, isNew⟩
  rw [empty] at member
  exact Finset.notMem_empty path member

theorem ListsModules.cons
    {walk middle after : Walk}
    {path : String}
    {rest : List String}
    (first : index.ListsModules walk [path] middle)
    (further : index.ListsModules middle rest after) :
    index.ListsModules walk (path :: rest) after := by
  cases first with
  | again visited nothing =>
      cases nothing
      exact .again visited further
  | entered isNew prepended included nothing =>
      cases nothing
      exact .entered isNew prepended included further

/-- Names of a domain are listed in turn when there are enough steps for each of them. -/
theorem listsModules_foldl
    {domain : Finset String}
    {limit : Nat}
    {list : Walk → String → Walk}
    (each : ∀ walk : Walk, ∀ path ∈ domain,
      (unvisited domain walk.visited).card ≤ limit →
      index.ListsModules walk [path] (list walk path))
    {names : List String}
    (inDomain : ∀ name ∈ names, name ∈ domain)
    {walk : Walk}
    (enough : (unvisited domain walk.visited).card ≤ limit) :
    index.ListsModules walk names (names.foldl list walk) := by
  induction names generalizing walk with
  | nil =>
      exact .done
  | cons name rest inductionHypothesis =>
      have first := each walk name (inDomain name List.mem_cons_self) enough
      obtain ⟨met, meets, -⟩ := first.exists_meets
      have fewer := card_unvisited_le domain meets.visited_subset
      refine first.cons (inductionHypothesis ?_ (fewer.trans enough))
      intro other member
      exact inDomain other (List.mem_cons_of_mem name member)

/-- A new namespace is listed with its mixins when there are enough steps for each of them. -/
theorem listsModules_listWithMixins
    {domain : Finset String}
    {limit : Nat}
    {list : Walk → String → Walk}
    (each : ∀ walk : Walk, ∀ path ∈ domain,
      (unvisited domain walk.visited).card ≤ limit →
      index.ListsModules walk [path] (list walk path))
    (mixesInside : ∀ path name, index.Mixes path name → name ∈ domain)
    {walk : Walk}
    {path : String}
    (isNew : path ∉ walk.visited)
    (enough : (unvisited domain (path :: walk.visited)).card ≤ limit) :
    index.ListsModules walk [path] (index.listWithMixins list walk path) := by
  have prepended :
      index.ListsModules { walk with visited := path :: walk.visited }
        (index.mixins path .prepending).reverse
        ((index.mixins path .prepending).reverse.foldl list
          { walk with visited := path :: walk.visited }) := by
    refine listsModules_foldl each ?_ enough
    intro name member
    exact mixesInside path name (.inl (List.mem_reverse.mp member))
  obtain ⟨met, meets, -⟩ := prepended.exists_meets
  have enoughBehind := (card_unvisited_le domain meets.visited_subset).trans enough
  refine .entered isNew prepended ?_ .done
  refine listsModules_foldl each ?_ enoughBehind
  intro name member
  exact mixesInside path name (.inr (List.mem_reverse.mp member))

/-- A module is listed before the limit if every name left of the domain could take a step. -/
theorem listsModules_listModule
    {domain : Finset String}
    (mixesInside : ∀ path name, index.Mixes path name → name ∈ domain)
    {limit : Nat}
    {walk : Walk}
    {path : String}
    (inDomain : path ∈ domain)
    (enough : (unvisited domain walk.visited).card ≤ limit) :
    index.ListsModules walk [path] (index.listModule limit walk path) := by
  induction limit generalizing walk path with
  | zero =>
      -- Where no step is left, no name of the domain is left either.
      exact .again (visited_of_card_unvisited inDomain enough) .done
  | succ limit inductionHypothesis =>
      unfold listModule
      split
      · next visited =>
          exact .again visited .done
      · next isNew =>
          have fewer := card_unvisited_cons_lt inDomain isNew
          have enoughInside : (unvisited domain (path :: walk.visited)).card ≤ limit := by
            omega
          refine listsModules_listWithMixins ?_ mixesInside isNew enoughInside
          intro walk path
          exact inductionHypothesis

/-- Ancestors are listed before the limit if every name left of the domain could take a step. -/
theorem listsAncestors_listAncestors
    {domain : Finset String}
    (passesOnInside : ∀ path name, index.PassesOn path name → name ∈ domain)
    (small : domain.card ≤ index.walkLimit)
    {limit : Nat}
    {walk : Walk}
    {path : String}
    (inDomain : path ∈ domain)
    (enough : (unvisited domain walk.visited).card ≤ limit) :
    index.ListsAncestors walk path (index.listAncestors limit walk path) := by
  induction limit generalizing walk path with
  | zero =>
      exact .again (visited_of_card_unvisited inDomain enough)
  | succ limit inductionHypothesis =>
      have mixesInside : ∀ path name, index.Mixes path name → name ∈ domain := by
        intro path name mixes
        exact passesOnInside path name mixes.passesOn
      unfold listAncestors
      split
      · next visited =>
          exact .again visited
      · next isNew =>
          have fewer := card_unvisited_cons_lt inDomain isNew
          have itself :
              index.ListsModules walk [path]
                (index.listWithMixins (index.listModule index.walkLimit) walk path) := by
            refine listsModules_listWithMixins ?_ mixesInside isNew
              ((Finset.card_filter_le domain _).trans small)
            intro walk path
            exact listsModules_listModule mixesInside
          dsimp only
          split
          · next superclass isSuperclass =>
              obtain ⟨met, meets, -⟩ := itself.exists_meets
              have pathVisited := meets.roots_visited path List.mem_cons_self
              have left := card_unvisited_le domain
                (List.cons_subset.mpr ⟨pathVisited, meets.visited_subset⟩)
              refine .further isNew itself isSuperclass ?_
              have superclassInside := passesOnInside path superclass (.inr (.inr isSuperclass))
              refine inductionHypothesis superclassInside ?_
              omega
          · next isLast =>
              exact .last isNew itself isLast

end Limits

end Index

end TagCheck
