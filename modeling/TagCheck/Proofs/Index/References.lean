import TagCheck.Proofs.Index.Openness
import TagCheck.Proofs.Outline.Reach
import TagCheck.Proofs.Snapshot

namespace TagCheck

/-!
# Which written references are recorded

The superclasses and mixins of a closed namespace that are written as paths of constants are
recorded in the index.  Any other expression for a superclass or a mixin leaves no trace, and does
not make the namespace open.
-/

/-- The name of the calls that mix modules in. -/
def ReferenceKind.callName : ReferenceKind → String
  | inclusion => "include"
  | extension => "extend"
  | prepending => "prepend"

/-- An argument of a mixin call without receiver that stands directly in a body of a namespace. -/
inductive WritesMixin (sources : List Source) :
    String → ReferenceKind → List String → SyntaxNode → Prop
  | call {source : Source} {region : Region} {call argument : SyntaxNode} {kind : ReferenceKind}
      (member : source ∈ sources) (walks : source.root.Walks region call)
      (isCall : call.kind = .call) (noReceiver : call.child? .receiver = none)
      (inBody : region.inNamespaceBody = true) (named : call.name? = some kind.callName)
      (isArgument : argument ∈ call.arguments) :
      WritesMixin sources region.closure.namespacePath kind region.gates argument

/-- The expression for the superclass in a class definition that declares a path. -/
inductive WritesSuperclass (sources : List Source) : String → List String → SyntaxNode → Prop
  | definition {source : Source} {region : Region} {node superclass : SyntaxNode} {path : String}
      (member : source ∈ sources) (walks : source.root.Walks region node)
      (isClass : node.kind = .classDefinition) (defined : region.definedPath? node = some path)
      (written : node.superclass? = some superclass) :
      WritesSuperclass sources path region.gates superclass

namespace Index

/-- The declared path that an expression refers to in a lexical nesting; only constants do. -/
def referent? (index : Index) (gates : List String) (node : SyntaxNode) : Option String :=
  if node.isConstantPath then index.qualifyLexical? node.text gates else none

/-- What an expression refers to is recorded as a mixin of a namespace. -/
def HasMixin (index : Index) (path : String) (kind : ReferenceKind) (gates : List String)
    (argument : SyntaxNode) : Prop :=
  ∃ name ∈ index.mixins path kind, index.referent? gates argument = some name

/-- What an expression refers to is recorded as the superclass of a class. -/
def HasSuperclass (index : Index) (path : String) (gates : List String) (superclass : SyntaxNode) :
    Prop :=
  ∃ name, index.explicitSuperclass? path = some name ∧
    index.referent? gates superclass = some name

end Index

namespace Survey

/-- The pin of a mixin argument. -/
structure IsReference (region : Region) (kind : ReferenceKind) (argument : SyntaxNode)
    (pin : Pin) : Prop where
  name_eq : pin.name = argument.text
  closure_eq : pin.closure = region.closure
  kind_eq : pin.kind = .reference kind region.gates

/-- The pin of a class definition. -/
structure IsClassPin (region : Region) (path : String) (node : SyntaxNode) (pin : Pin) :
    Prop where
  path_eq : pin.path = path
  kind_eq :
    pin.kind = .namespacePin .classNamespace node.superclassName? (path :: region.gates)

variable {source : SourceLabel} {region : Region}

theorem IsReference.notMethod
    {kind : ReferenceKind}
    {argument : SyntaxNode}
    (pin : Pin)
    (isReference : IsReference region kind argument pin)
    (detail : MethodDetail) :
    pin.kind ≠ .method detail := by
  rw [isReference.kind_eq]
  exact nofun

theorem IsClassPin.notMethod
    {path : String}
    {node : SyntaxNode}
    (pin : Pin)
    (isClassPin : IsClassPin region path node pin)
    (detail : MethodDetail) :
    pin.kind ≠ .method detail := by
  rw [isClassPin.kind_eq]
  exact nofun

/-- The arguments of a mixin call are declared one by one. -/
theorem declareReferences_cons
    (survey : Survey)
    (kind : ReferenceKind)
    (first : SyntaxNode)
    (rest : List SyntaxNode) :
    survey.declareReferences source region kind (first :: rest) =
      (survey.declareReferences source region kind [first]).declareReferences source region kind
        rest := by
  unfold declareReferences
  rw [← List.foldl_append, ← List.filter_append, List.singleton_append]

/-- Every constant path among the arguments of a mixin call is declared as a reference. -/
theorem exists_pin_declareReferences
    {kind : ReferenceKind}
    {arguments : List SyntaxNode}
    {argument : SyntaxNode}
    (member : argument ∈ arguments)
    (isPath : argument.isConstantPath = true)
    (survey : Survey) :
    ∃ pin ∈ (survey.declareReferences source region kind arguments).pins,
      IsReference region kind argument pin := by
  induction arguments generalizing survey with
  | nil =>
      cases member
  | cons first rest inductionHypothesis =>
      rw [declareReferences_cons]
      rcases List.mem_cons.mp member with rfl | inRest
      · refine (isKept_exists_pin source IsReference.notMethod).declareReferences region kind rest ?_
        unfold declareReferences
        rw [List.filter_cons_of_pos isPath]
        exact ⟨_, List.mem_cons_self, rfl, rfl, rfl⟩
      · exact inductionHypothesis inRest _

/-- The name of a mixin call is no keyword for a visibility. -/
theorem visibilityCall?_of_callName
    {node : SyntaxNode}
    {kind : ReferenceKind}
    (named : node.name? = some kind.callName) :
    visibilityCall? region node = none := by
  unfold visibilityCall?
  rw [named]
  cases kind <;> exact ite_self none

/-- A mixin call in the body of a namespace declares its arguments. -/
theorem declareByCall_of_callName
    (survey : Survey)
    {node : SyntaxNode}
    {kind : ReferenceKind}
    (named : node.name? = some kind.callName) :
    survey.declareByCall source region node =
      survey.declareReferences source region kind node.arguments := by
  unfold declareByCall
  rw [named]
  cases kind <;> rfl

/-- The walk over a mixin call declares every constant path among its arguments. -/
theorem exists_pin_visit_mixin
    {call argument : SyntaxNode}
    {kind : ReferenceKind}
    (isCall : call.kind = .call)
    (noReceiver : call.child? .receiver = none)
    (inBody : region.inNamespaceBody = true)
    (named : call.name? = some kind.callName)
    (isArgument : argument ∈ call.arguments)
    (isPath : argument.isConstantPath = true)
    (survey : Survey) :
    ∃ pin ∈ (visit source region call survey).pins, IsReference region kind argument pin := by
  obtain ⟨_, field, text?, comments, span, children⟩ := call
  cases isCall
  unfold visit
  dsimp only
  rw [visibilityCall?_of_callName named, declareByCall_of_callName survey named, noReceiver, inBody]
  exact (isKept_exists_pin source IsReference.notMethod).visitWhere region _ children
    (exists_pin_declareReferences isArgument isPath survey)

/-- The walk over a class definition declares the class. -/
theorem exists_pin_visit_class
    {node : SyntaxNode}
    {path : String}
    (isClass : node.kind = .classDefinition)
    (defined : region.definedPath? node = some path)
    (survey : Survey) :
    ∃ pin ∈ (visit source region node survey).pins, IsClassPin region path node pin := by
  obtain ⟨_, field, text?, comments, span, children⟩ := node
  cases isClass
  unfold visit
  dsimp only
  simp only [openDefinition?, openNamespace?, defined, Option.bind_eq_bind, Option.bind_some,
    Option.pure_def]
  refine (isKept_exists_pin source IsClassPin.notMethod).visitWhere _ _ children ?_
  exact ⟨_, List.mem_cons_self, rfl, rfl⟩

end Survey

namespace Snapshot

variable {sources : List Source}

/-- The outline of every source is published. -/
theorem exists_mem_outlinesOf
    {source : Source}
    (member : source ∈ sources) :
    ∃ number, Outline.ofSource number source ∈ outlinesOf 0 sources := by
  obtain ⟨place, found⟩ := List.mem_iff_getElem?.mp member
  have placed : (source, place) ∈ sources.zipIdx :=
    List.mem_zipIdx_iff_getElem?.mpr found
  exact ⟨place + 1, List.mem_map.mpr ⟨_, placed, rfl⟩⟩

/-- What the walk over a node of a source declares is indexed, unless it is a method. -/
theorem exists_pin_of_walks
    {source : Source}
    {region : Region}
    {node : SyntaxNode}
    {isMeant : Pin → Prop}
    (notMethod : ∀ pin, isMeant pin → ∀ detail, pin.kind ≠ .method detail)
    (member : source ∈ sources)
    (walks : source.root.Walks region node)
    (declared : ∀ label survey, ∃ pin ∈ (Survey.visit label region node survey).pins, isMeant pin) :
    ∃ pin ∈ (ofSources sources).index.pins, isMeant pin := by
  obtain ⟨number, published⟩ := exists_mem_outlinesOf member
  have kept := Survey.isKept_exists_pin ⟨source.filename, number⟩ notMethod
  obtain ⟨pin, surveyed, meant⟩ := kept.ofProgram_of_walks walks (declared _)
  have outlined : pin ∈ (Outline.ofSource number source).pins :=
    List.mem_cons_of_mem _ (List.mem_reverse.mpr surveyed)
  exact ⟨pin, (IsBuilt.ofSources sources).indexed _ published pin outlined, meant⟩

/-- A closed path is a namespace, the top level of a source included. -/
theorem isNamespace_of_closed
    {source : Source}
    (member : source ∈ sources)
    {path : String}
    (closed : (ofSources sources).index.isOpen path = false) :
    (ofSources sources).index.isNamespace path = true := by
  by_cases isRoot : path = ""
  · obtain ⟨number, published⟩ := exists_mem_outlinesOf member
    have built := IsBuilt.ofSources sources
    have indexed := built.indexed _ published _ List.mem_cons_self
    rw [isRoot]
    exact built.listed.isNamespace indexed rfl
  · exact Index.isNamespace_of_closed closed isRoot

end Snapshot

namespace Index

variable {index : Index} {path : String}

/-- Only a constant path refers to anything. -/
theorem isConstantPath_of_referent?
    {gates : List String}
    {node : SyntaxNode}
    {name : String}
    (refers : index.referent? gates node = some name) :
    node.isConstantPath = true := by
  unfold referent? at refers
  split at refers
  · next isPath =>
      exact isPath
  · cases refers

/-- The references of a closed namespace are resolved. -/
theorem isResolved_of_closed
    (closed : index.isOpen path = false)
    (isNamespace : index.isNamespace path = true) :
    (∀ reference, index.superclassReference? path = some reference →
      ∃ superclass, index.explicitSuperclass? path = some superclass) ∧
    ∀ kind, ∀ pin ∈ index.references path kind,
      ∃ name, index.qualifyLexical? pin.name pin.gates = some name := by
  simp only [isOpen, Bool.or_eq_false_iff, List.any_eq_false] at closed
  have resolved := eq_false_of_ne_true (closed.1.2 path (self_mem_ancestors index path))
  simp only [hasUnresolvedReference, isNamespace, Bool.true_and, Bool.or_eq_false_iff,
    List.any_eq_false] at resolved
  obtain ⟨superclassResolved, mixinsResolved⟩ := resolved
  refine ⟨?_, ?_⟩
  · intro reference written
    rw [written, Option.isSome_some, Bool.true_and] at superclassResolved
    exact Option.isSome_iff_exists.mp (by simpa using superclassResolved)
  · intro kind pin referred
    have isKind : kind ∈ [ReferenceKind.inclusion, .extension, .prepending] := by
      cases kind <;> decide
    have found := mixinsResolved kind isKind
    rw [List.any_eq_true] at found
    refine Option.ne_none_iff_exists'.mp fun unresolved => found ⟨pin, referred, ?_⟩
    rw [unresolved, Option.isNone_none]

/-- The mixin calls of a closed namespace name mixins. -/
theorem exists_mem_mixins_of_closed
    (listed : index.IsListed)
    (closed : index.isOpen path = false)
    (isNamespace : index.isNamespace path = true)
    {pin : Pin}
    (member : pin ∈ index.pins)
    {kind : ReferenceKind}
    {gates : List String}
    (isReference : pin.kind = .reference kind gates)
    (isOwner : pin.closure.namespacePath = path) :
    ∃ name ∈ index.mixins path kind, index.qualifyLexical? pin.name gates = some name := by
  have called : pin ∈ index.mixinCalls path := by
    rw [listed.mem_mixinCalls]
    simp only [referenceKey?, isReference, isOwner, member, true_and]
  have referred : pin ∈ index.references path kind := by
    simp only [references, List.mem_filter, called, isReference, decide_true, true_and]
  have sameGates : pin.gates = gates := by
    simp only [PinOf.gates, isReference]
  obtain ⟨name, qualified⟩ := (isResolved_of_closed closed isNamespace).2 kind pin referred
  refine ⟨name, ?_, sameGates ▸ qualified⟩
  rw [mixins, if_pos isNamespace]
  exact List.mem_filterMap.mpr ⟨pin, referred, qualified⟩

/-- What the superclass of a class refers to is what was written for it first. -/
theorem qualifyLexical?_of_explicitSuperclass?
    {superclass : String}
    (recorded : index.explicitSuperclass? path = some superclass) :
    ∃ written, index.superclassReference? path = some written ∧
      index.qualifyLexical? written.1 written.2 = some superclass := by
  simp only [explicitSuperclass?, Option.bind_eq_bind, Option.bind_eq_some_iff] at recorded
  obtain ⟨written, isFirst, other, qualified, notItself⟩ := recorded
  split at notItself
  · cases notItself
  · cases notItself
    exact ⟨written, isFirst, qualified⟩

end Index

namespace Snapshot

variable {path : String}

/-- A constant path in a mixin call of a closed namespace is recorded, and nothing else is. -/
theorem hasMixin_iff_of_closed
    (closed : (ofSources sources).index.isOpen path = false)
    {kind : ReferenceKind}
    {gates : List String}
    {argument : SyntaxNode}
    (writes : WritesMixin sources path kind gates argument) :
    (ofSources sources).index.HasMixin path kind gates argument ↔
      argument.isConstantPath = true := by
  refine ⟨fun recorded => ?_, fun isPath => ?_⟩
  · obtain ⟨name, -, refers⟩ := recorded
    exact Index.isConstantPath_of_referent? refers
  · obtain ⟨member, walks, isCall, noReceiver, inBody, named, isArgument⟩ := writes
    have isNamespace := isNamespace_of_closed member closed
    obtain ⟨pin, indexed, isReference⟩ :=
      exists_pin_of_walks Survey.IsReference.notMethod member walks fun _ =>
        Survey.exists_pin_visit_mixin isCall noReceiver inBody named isArgument isPath
    obtain ⟨name, isMixin, qualified⟩ :=
      Index.exists_mem_mixins_of_closed (IsBuilt.ofSources sources).listed closed isNamespace indexed
        isReference.kind_eq (congrArg Closure.namespacePath isReference.closure_eq)
    refine ⟨name, isMixin, ?_⟩
    rw [Index.referent?, if_pos isPath, ← isReference.name_eq]
    exact qualified

/-- A closed class has a superclass if a path of constants is written for one. -/
theorem exists_superclassReference?_of_writes
    {gates : List String}
    {superclass : SyntaxNode}
    (writes : WritesSuperclass sources path gates superclass)
    (isPath : superclass.isConstantPath = true) :
    ∃ reference, (ofSources sources).index.superclassReference? path = some reference := by
  obtain ⟨member, walks, isClass, defined, written⟩ := writes
  obtain ⟨pin, indexed, isClassPin⟩ :=
    exists_pin_of_walks Survey.IsClassPin.notMethod member walks fun _ =>
      Survey.exists_pin_visit_class isClass defined
  have listed := (IsBuilt.ofSources sources).listed
  have atPath := listed.mem_pathPins.mpr ⟨indexed, isClassPin.path_eq⟩
  rw [← Option.isSome_iff_exists, Index.superclassReference?, List.findSome?_isSome_iff]
  refine ⟨pin, atPath, ?_⟩
  simp only [Index.writtenSuperclass?, isClassPin.kind_eq, SyntaxNode.superclassName?, written,
    isPath, if_true, Option.isSome_some]

/-- A written superclass of a closed class is recorded if it is the one that was written first. -/
theorem hasSuperclass_iff_of_closed
    (closed : (ofSources sources).index.isOpen path = false)
    {gates : List String}
    {superclass : SyntaxNode}
    (writes : WritesSuperclass sources path gates superclass) :
    (ofSources sources).index.HasSuperclass path gates superclass ↔
      superclass.isConstantPath = true ∧
        ∀ first, (ofSources sources).index.superclassReference? path = some first →
          (ofSources sources).index.referent? gates superclass =
            (ofSources sources).index.qualifyLexical? first.1 first.2 := by
  constructor
  · rintro ⟨name, recorded, refers⟩
    obtain ⟨first, isFirst, qualified⟩ := Index.qualifyLexical?_of_explicitSuperclass? recorded
    refine ⟨Index.isConstantPath_of_referent? refers, fun other isOther => ?_⟩
    rw [isFirst] at isOther
    cases isOther
    rw [qualified, refers]
  · rintro ⟨isPath, sameClass⟩
    have isNamespace : (ofSources sources).index.isNamespace path = true := by
      obtain ⟨member, -⟩ := writes
      exact isNamespace_of_closed member closed
    obtain ⟨reference, isWritten⟩ := exists_superclassReference?_of_writes writes isPath
    obtain ⟨name, recorded⟩ := (Index.isResolved_of_closed closed isNamespace).1 reference isWritten
    obtain ⟨first, isFirst, qualified⟩ := Index.qualifyLexical?_of_explicitSuperclass? recorded
    refine ⟨name, recorded, ?_⟩
    rw [sameClass first isFirst, qualified]

/--
A mixin argument in a closed namespace is recorded exactly when it is a path of constants, and a
superclass exactly when it is one and refers to the class that was written first.
-/
theorem references_of_closed
    (closed : (ofSources sources).index.isOpen path = false) :
    (∀ kind gates argument, WritesMixin sources path kind gates argument →
      ((ofSources sources).index.HasMixin path kind gates argument ↔
        argument.isConstantPath = true)) ∧
    (∀ gates superclass, WritesSuperclass sources path gates superclass →
      ((ofSources sources).index.HasSuperclass path gates superclass ↔
        superclass.isConstantPath = true ∧
          ∀ first, (ofSources sources).index.superclassReference? path = some first →
            (ofSources sources).index.referent? gates superclass =
              (ofSources sources).index.qualifyLexical? first.1 first.2)) :=
  ⟨fun _ _ _ => hasMixin_iff_of_closed closed, fun _ _ => hasSuperclass_iff_of_closed closed⟩

end Snapshot

namespace CallSuperclass

open Stub.Layout

/-- The call `Struct.new(:a)`. -/
def superclass : SyntaxNode :=
  branch .call none ⟨0, 12⟩ ⟨0, 26⟩
    [leaf .constant (some .receiver) ⟨0, 12⟩ "Struct",
      leaf .operator (some .operator) ⟨0, 18⟩ ".",
      leaf .identifier (some .method) ⟨0, 19⟩ "new",
      branch .argumentList (some .arguments) ⟨0, 22⟩ ⟨0, 26⟩ [leaf .symbol none ⟨0, 23⟩ ":a"]]

/-- The call `include Comparable`. -/
def inclusion : SyntaxNode :=
  inclusionNode ⟨1, 2⟩ "Comparable"

/-- The argument of the call. -/
def argument : SyntaxNode :=
  leaf .constant none ⟨1, 10⟩ "Comparable"

/-- A class `Foo` with the superclass and the mixin. -/
def definition : SyntaxNode :=
  branch .classDefinition none ⟨0, 0⟩ ⟨2, 3⟩
    [leaf .constant (some .name) ⟨0, 6⟩ "Foo",
      branch .superclass (some .superclass) ⟨0, 10⟩ ⟨0, 26⟩ [superclass],
      inclusion]

/-- The source of the class. -/
def source : Source where
  filename := "foo.rb"
  root := branch .program none ⟨0, 0⟩ ⟨3, 0⟩ [definition]
  isParsed := true

/-- The region of the class body. -/
def body : Region :=
  (Region.ofProgram source.root.span).ofNamespace "Foo" definition.span

theorem walks_definition :
    source.root.Walks (.ofProgram source.root.span) definition :=
  .statement List.mem_cons_self

theorem walks_inclusion :
    source.root.Walks body inclusion :=
  walks_definition.part (List.mem_singleton.mpr rfl)

theorem writesSuperclass :
    WritesSuperclass [source] "Foo" [""] superclass :=
  .definition (List.mem_singleton.mpr rfl) walks_definition rfl (by decide) rfl

theorem writesMixin :
    WritesMixin [source] "Foo" .inclusion ["Foo", ""] argument :=
  .call (List.mem_singleton.mpr rfl) walks_inclusion rfl rfl rfl (by decide)
    (List.mem_singleton.mpr rfl)

/-- The index of the class. -/
def index : Index :=
  (Snapshot.ofSources [source]).index

/-- The class is closed. -/
theorem isOpen_foo :
    index.isOpen "Foo" = false := by
  rw [index, Snapshot.ofSources_eq_ofList]
  decide +kernel

/-- The mixin of the class is recorded. -/
theorem hasMixin_foo :
    index.isOpen "Foo" = false ∧ index.HasMixin "Foo" .inclusion ["Foo", ""] argument := by
  refine ⟨isOpen_foo, ?_⟩
  exact ((Snapshot.references_of_closed isOpen_foo).1 _ _ _ writesMixin).mpr rfl

/-- The class is closed, but its superclass is not recorded. -/
theorem references_of_closed_not_recorded :
    ¬∀ (sources : List Source) (path : String),
      (Snapshot.ofSources sources).index.isNamespace path = true →
      (Snapshot.ofSources sources).index.isOpen path = false →
        (∀ kind gates argument, WritesMixin sources path kind gates argument →
          (Snapshot.ofSources sources).index.HasMixin path kind gates argument) ∧
        (∀ gates superclass, WritesSuperclass sources path gates superclass →
          (Snapshot.ofSources sources).index.HasSuperclass path gates superclass) := by
  intro allRecorded
  have isNamespace : index.isNamespace "Foo" = true :=
    Snapshot.isNamespace_of_closed (List.mem_singleton.mpr rfl) isOpen_foo
  have noSuperclass : index.explicitSuperclass? "Foo" = none := by
    rw [index, Snapshot.ofSources_eq_ofList]
    decide +kernel
  obtain ⟨name, recorded, -⟩ :=
    (allRecorded [source] "Foo" isNamespace isOpen_foo).2 _ _ writesSuperclass
  change index.explicitSuperclass? "Foo" = some name at recorded
  rw [noSuperclass] at recorded
  cases recorded

end CallSuperclass

end TagCheck
