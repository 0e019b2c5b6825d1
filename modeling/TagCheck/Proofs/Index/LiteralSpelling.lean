import TagCheck.Proofs.Index.Compatibility
import TagCheck.Proofs.Index.QualifiedTypes

namespace TagCheck

/-!
# Literals and their classes

The literals `nil`, `true` and `false` are written in types beside the classes of their values.  Two
types are spellings of the same one if they agree once every literal is replaced with its class, at
every depth.

No tag tells a literal from its class, with one exception: a Boolean fits the classes of the truth
values, but not their literals.  Everywhere else both spellings give the same verdict.
-/

namespace DocType

/-- Nil gives way to its class; every other name is kept. -/
def classOfNil (name : String) : String :=
  if name = "nil" then "NilClass" else name

/-- Each name is kept, or a literal gives way to its class. -/
def SpellsLiterals (spelling : String → String) : Prop :=
  ∀ name, spelling name = name ∨ spelling name = classOfLiteral name

mutual

/-- Spell the names in an alternative otherwise, at every depth. -/
def respell (spelling : String → String) : DocType → DocType
  | ⟨name, ordered, keys, values, nullable⟩ =>
      ⟨spelling name, respellParameters spelling ordered, respellParameters spelling keys,
        respellParameters spelling values, nullable⟩

/-- Spell the names in all alternatives otherwise. -/
def respellAlternatives (spelling : String → String) : List DocType → List DocType
  | [] => []
  | type :: rest => respell spelling type :: respellAlternatives spelling rest

/-- Spell the names in all parameters otherwise. -/
def respellParameters (spelling : String → String) : List (List DocType) → List (List DocType)
  | [] => []
  | parameter :: rest =>
      DocUnion.ofList (respellAlternatives spelling parameter) ::
        respellParameters spelling rest

end

end DocType

/-- Spell the names in a union otherwise, at every depth. -/
def DocUnion.respell (spelling : String → String) (union : DocUnion) : DocUnion :=
  ofList (DocType.respellAlternatives spelling union)

namespace DocType

section Shape

variable {spelling : String → String} {type : DocType}

theorem respellAlternatives_eq_map
    (types : List DocType) :
    respellAlternatives spelling types = types.map (respell spelling) := by
  induction types with
  | nil =>
      rfl
  | cons type rest inductionHypothesis =>
      rw [respellAlternatives, inductionHypothesis, List.map_cons]

theorem respellParameters_eq_map
    (parameters : List DocUnion) :
    respellParameters spelling parameters = parameters.map (DocUnion.respell spelling) := by
  induction parameters with
  | nil =>
      rfl
  | cons parameter rest inductionHypothesis =>
      rw [respellParameters, inductionHypothesis, List.map_cons]
      rfl

theorem mem_respell
    {union : DocUnion} :
    type ∈ union.respell spelling ↔ ∃ written ∈ union, written.respell spelling = type := by
  rw [DocUnion.respell, DocUnion.mem_ofList, respellAlternatives_eq_map, List.mem_map]

@[simp] theorem name_respell :
    (type.respell spelling).name = spelling type.name := by
  cases type
  rfl

@[simp] theorem ordered_respell :
    (type.respell spelling).ordered = type.ordered.map (DocUnion.respell spelling) := by
  cases type
  exact respellParameters_eq_map _

@[simp] theorem keys_respell :
    (type.respell spelling).keys = type.keys.map (DocUnion.respell spelling) := by
  cases type
  exact respellParameters_eq_map _

@[simp] theorem values_respell :
    (type.respell spelling).values = type.values.map (DocUnion.respell spelling) := by
  cases type
  exact respellParameters_eq_map _

@[simp] theorem nullable_respell :
    (type.respell spelling).nullable = type.nullable := by
  cases type
  rfl

@[simp] theorem isParameterized_respell :
    (type.respell spelling).isParameterized = type.isParameterized := by
  simp [isParameterized]

theorem mem_join_respell
    {parameters : List DocUnion} :
    type ∈ DocUnion.join (parameters.map (DocUnion.respell spelling)) ↔
      type ∈ (DocUnion.join parameters).respell spelling := by
  simp only [DocUnion.join, DocUnion.mem_ofList, List.mem_flatten, List.mem_map, mem_respell]
  constructor
  · rintro ⟨-, ⟨parameter, isParameter, rfl⟩, member⟩
    obtain ⟨written, isWritten, rfl⟩ := mem_respell.mp member
    exact ⟨written, ⟨parameter, isParameter, isWritten⟩, rfl⟩
  · rintro ⟨written, ⟨parameter, isParameter, isWritten⟩, rfl⟩
    exact ⟨_, ⟨parameter, isParameter, rfl⟩, mem_respell.mpr ⟨written, isWritten, rfl⟩⟩

end Shape

namespace SpellsLiterals

variable {spelling : String → String} {name : String}

theorem classOfLiteral :
    SpellsLiterals DocType.classOfLiteral := by
  intro name
  exact .inr rfl

theorem classOfNil :
    SpellsLiterals DocType.classOfNil := by
  intro name
  unfold DocType.classOfNil
  split
  · next isNil =>
      exact .inr (isNil ▸ rfl)
  · exact .inl rfl

/-- Whatever the literals share with their classes does not depend on the spelling. -/
theorem apply_eq
    {Value : Type}
    (spells : SpellsLiterals spelling)
    (property : String → Value)
    (nil : property "NilClass" = property "nil")
    (true : property "TrueClass" = property "true")
    (false : property "FalseClass" = property "false")
    (name : String) :
    property (spelling name) = property name := by
  rcases spells name with same | isClass
  · rw [same]
  · rw [isClass]
    unfold DocType.classOfLiteral
    split
    · exact nil
    · exact true
    · exact false
    · rfl

/-- Only the literals of the truth values are spelled as the class of one and were not before. -/
theorem isTruthClass_or
    (spells : SpellsLiterals spelling)
    (name : String) :
    ["TrueClass", "FalseClass"].contains (spelling name) =
        ["TrueClass", "FalseClass"].contains name ∨
      ["TrueClass", "FalseClass"].contains name = false ∧ name ∈ ["true", "false"] ∧
        spelling name ≠ name := by
  rcases spells name with same | isClass
  · exact .inl (by rw [same])
  · rw [isClass]
    unfold DocType.classOfLiteral
    split
    · exact .inl rfl
    · exact .inr (by decide)
    · exact .inr (by decide)
    · exact .inl rfl

end SpellsLiterals

section Tags

variable {spelling : String → String} {type : DocType}

/-- What tags say of the literals as of their classes is kept. -/
theorem of_name_respell
    {Value : Type}
    (spells : SpellsLiterals spelling)
    (property : String → Value)
    (nil : property "NilClass" = property "nil")
    (true : property "TrueClass" = property "true")
    (false : property "FalseClass" = property "false") :
    property (type.respell spelling).name = property type.name := by
  rw [name_respell]
  exact spells.apply_eq property nil true false type.name

theorem isDuck_respell
    (spells : SpellsLiterals spelling) :
    (type.respell spelling).isDuck = type.isDuck :=
  of_name_respell spells (fun name => (named name).isDuck) rfl rfl rfl

theorem duckMember?_respell
    (spells : SpellsLiterals spelling) :
    (type.respell spelling).duckMember? = type.duckMember? :=
  of_name_respell spells (fun name => (named name).duckMember?) rfl rfl rfl

theorem isSelf_respell
    (spells : SpellsLiterals spelling) :
    (type.respell spelling).isSelf = type.isSelf :=
  of_name_respell spells (fun name => (named name).isSelf) rfl rfl rfl

theorem isGeneric_respell
    (spells : SpellsLiterals spelling) :
    (type.respell spelling).isGeneric = type.isGeneric :=
  of_name_respell spells (fun name => (named name).isGeneric) rfl rfl rfl

theorem isBoolean_respell
    (spells : SpellsLiterals spelling) :
    (type.respell spelling).isBoolean = type.isBoolean :=
  of_name_respell spells (fun name => (named name).isBoolean) rfl rfl rfl

theorem isNil_respell
    (spells : SpellsLiterals spelling) :
    (type.respell spelling).isNil = type.isNil :=
  of_name_respell spells (fun name => (named name).isNil) rfl rfl rfl

theorem contains_keyedContainers_respell
    (spells : SpellsLiterals spelling) :
    keyedContainers.contains (type.respell spelling).name = keyedContainers.contains type.name :=
  of_name_respell spells keyedContainers.contains rfl rfl rfl

theorem isKeyedContainer_respell
    (spells : SpellsLiterals spelling) :
    (type.respell spelling).isKeyedContainer = type.isKeyedContainer := by
  rw [isKeyedContainer, contains_keyedContainers_respell spells, values_respell, List.isEmpty_map]
  rfl

theorem isMeta_respell
    (spells : SpellsLiterals spelling) :
    (type.respell spelling).isMeta = type.isMeta := by
  have sameName :
      (decide ((type.respell spelling).name = "Class") ||
          decide ((type.respell spelling).name = "Module")) =
        (decide (type.name = "Class") || decide (type.name = "Module")) :=
    of_name_respell spells (fun name => decide (name = "Class") || decide (name = "Module"))
      rfl rfl rfl
  rw [isMeta, sameName, ordered_respell, List.length_map]
  rfl

/-- What respelling keeps of every alternative, it keeps of the union. -/
theorem any_respell
    {property : DocType → Bool}
    (kept : ∀ type : DocType, property (type.respell spelling) = property type)
    (union : DocUnion) :
    (union.respell spelling).any property = union.any property := by
  rw [Bool.eq_iff_iff]
  simp only [List.any_eq_true, mem_respell]
  constructor
  · rintro ⟨-, ⟨written, isWritten, rfl⟩, holds⟩
    exact ⟨written, isWritten, (kept written).symm.trans holds⟩
  · rintro ⟨written, isWritten, holds⟩
    exact ⟨_, ⟨written, isWritten, rfl⟩, (kept written).trans holds⟩

theorem isNullable_respell
    (spells : SpellsLiterals spelling)
    (union : DocUnion) :
    (union.respell spelling).isNullable = union.isNullable := by
  refine any_respell (fun type => ?_) union
  rw [nullable_respell, isNil_respell spells]

theorem respell_eq_nil_iff
    {union : DocUnion} :
    union.respell spelling = [] ↔ union = [] := by
  simp [List.eq_nil_iff_forall_not_mem, mem_respell]

mutual

theorem refersTo_respell
    (spells : SpellsLiterals spelling) :
    ∀ type : DocType, (type.respell spelling).refersTo = type.refersTo
  | ⟨name, ordered, keys, values, nullable⟩ => by
      have parameter := refersToOnly_respell spells ordered
      rw [respell, refersTo, refersTo, parameter]
      exact spells.apply_eq
        (fun name =>
          if name = "Class" || name = "Module" then
            (refersToOnly ordered).getD name
          else
            classOfLiteral name) rfl rfl rfl name

theorem refersToFirst_respell
    (spells : SpellsLiterals spelling) :
    ∀ union : List DocType,
      refersToFirst (DocUnion.ofList (respellAlternatives spelling union)) = refersToFirst union
  | [] => rfl
  | type :: rest => by
      have first := refersTo_respell spells type
      obtain ⟨others, isFirst⟩ :=
        DocUnion.ofList_cons (type.respell spelling) (respellAlternatives spelling rest)
      rw [respellAlternatives, isFirst, refersToFirst, first, refersToFirst]

theorem refersToOnly_respell
    (spells : SpellsLiterals spelling) :
    ∀ parameters : List (List DocType),
      refersToOnly (respellParameters spelling parameters) = refersToOnly parameters
  | [] => rfl
  | [parameter] => refersToFirst_respell spells parameter
  | _ :: _ :: _ => rfl

end

end Tags

end DocType

namespace DocUnion

variable {spelling : String → String}

/-- Key types are respelled with the parameters that they come from. -/
theorem mem_keyType_respell
    (spells : DocType.SpellsLiterals spelling)
    (type inner : DocType) :
    inner ∈ (type.respell spelling).keyType ↔ inner ∈ DocUnion.respell spelling type.keyType := by
  unfold DocType.keyType
  rw [DocType.keys_respell, DocType.ordered_respell, List.isEmpty_map,
    DocType.contains_keyedContainers_respell spells]
  split
  · exact DocType.mem_join_respell
  · cases DocType.keyedContainers.contains type.name with
    | false =>
        rfl
    | true =>
        rcases type.ordered with - | ⟨first, - | ⟨second, - | ⟨third, rest⟩⟩⟩ <;> rfl

theorem mem_elementType_respell
    (spells : DocType.SpellsLiterals spelling)
    (type inner : DocType) :
    inner ∈ (type.respell spelling).elementType ↔
      inner ∈ DocUnion.respell spelling type.elementType := by
  unfold DocType.elementType
  rw [DocType.values_respell, DocType.ordered_respell, List.isEmpty_map,
    DocType.contains_keyedContainers_respell spells]
  split
  · exact DocType.mem_join_respell
  · cases DocType.keyedContainers.contains type.name with
    | false =>
        exact DocType.mem_join_respell
    | true =>
        rcases type.ordered with - | ⟨first, - | ⟨second, - | ⟨third, rest⟩⟩⟩
        · exact DocType.mem_join_respell
        · exact DocType.mem_join_respell
        · rfl
        · exact DocType.mem_join_respell

end DocUnion

/-- Alternatives of two types, or of types of parameters inside of them, that are compared. -/
inductive DocUnion.Compares : DocUnion → DocUnion → DocType → DocType → Prop
  | alternatives {expected actual : DocUnion} {e a : DocType} (isExpected : e ∈ expected)
      (isActual : a ∈ actual) : Compares expected actual e a
  | keys {expected actual : DocUnion} {e a innerE innerA : DocType} (isExpected : e ∈ expected)
      (isActual : a ∈ actual) (inside : Compares e.keyType a.keyType innerE innerA) :
      Compares expected actual innerE innerA
  | elements {expected actual : DocUnion} {e a innerE innerA : DocType}
      (isExpected : e ∈ expected) (isActual : a ∈ actual)
      (inside : Compares e.elementType a.elementType innerE innerA) :
      Compares expected actual innerE innerA

namespace DocUnion

/-- The tag of both truth values is compared with the literal of one. -/
def ComparesTruth (expected actual : DocUnion) : Prop :=
  ∃ e a, Compares expected actual e a ∧ e.name ∈ ["true", "false"] ∧ a.isBoolean = true

theorem isWithin_of_compares
    {expected actual : DocUnion}
    {e a : DocType}
    (compares : Compares expected actual e a) :
    a.IsWithin actual := by
  induction compares with
  | alternatives _ isActual =>
      exact .alternative isActual
  | keys _ isActual _ isWithin =>
      exact isWithin.of_inside isActual fun _ => DocType.exists_of_mem_keyType
  | elements _ isActual _ isWithin =>
      exact isWithin.of_inside isActual fun _ => DocType.exists_of_mem_elementType

/-- A type without the tag of both truth values is never compared as one. -/
theorem not_comparesTruth_of_contains
    {expected actual : DocUnion}
    (noBoolean : actual.contains DocType.isBoolean = false) :
    ¬ComparesTruth expected actual := by
  rintro ⟨e, a, compares, -, isBoolean⟩
  have found := contains_of_isWithin (isWithin_of_compares compares) isBoolean
  rw [noBoolean] at found
  cases found

end DocUnion

namespace Index

open DocType (SpellsLiterals)

/-- The classes of nil and of the truth values stand for themselves in a context. -/
def KnowsLiteralClasses (index : Index) (context : String) : Prop :=
  ∀ name ∈ ["NilClass", "TrueClass", "FalseClass"], index.qualify? name context = some name

variable {index : Index} {context : String} {spelling otherSpelling : String → String}

theorem qualifyClass?_respell
    (knows : index.KnowsLiteralClasses context)
    (spells : SpellsLiterals spelling)
    (name : String) :
    index.qualifyClass? (spelling name) context = index.qualifyClass? name context :=
  spells.apply_eq (index.qualifyClass? · context) (knows "NilClass" (by decide))
    (knows "TrueClass" (by decide)) (knows "FalseClass" (by decide)) name

theorem respondsTo_respell
    (spells : SpellsLiterals spelling)
    (type : DocType)
    (member : String) :
    index.respondsTo (type.respell spelling) member = index.respondsTo type member := by
  simp only [respondsTo, DocType.isNil_respell spells, DocType.refersTo_respell spells,
    DocType.isMeta_respell spells, DocType.isDuck_respell spells, DocType.isSelf_respell spells,
    DocType.isGeneric_respell spells]

/-- The verdict of tags depends on the spelling only where a Boolean meets a truth value. -/
theorem tagsFit?_respell
    (spells : SpellsLiterals spelling)
    (spellsActual : SpellsLiterals otherSpelling)
    (acceptsNil : Bool)
    (expected actual : DocType) :
    index.tagsFit? acceptsNil (expected.respell spelling) (actual.respell otherSpelling) =
        index.tagsFit? acceptsNil expected actual ∨
      index.tagsFit? acceptsNil expected actual = some false ∧ actual.isBoolean = true ∧
        expected.name ∈ ["true", "false"] ∧ spelling expected.name ≠ expected.name := by
  have truth := spellsActual.apply_eq
    (fun name => ["Boolean", "TrueClass", "FalseClass", "true", "false"].contains name)
    rfl rfl rfl actual.name
  unfold tagsFit?
  rw [DocType.duckMember?_respell spells]
  cases expected.duckMember? with
  | some member =>
      exact .inl (congrArg some (respondsTo_respell spellsActual actual member))
  | none =>
      dsimp only
      rw [DocType.isDuck_respell spellsActual, DocType.isSelf_respell spells,
        DocType.isGeneric_respell spells, DocType.isGeneric_respell spellsActual,
        DocType.isNil_respell spellsActual, DocType.isNil_respell spells,
        DocType.isBoolean_respell spells, DocType.isBoolean_respell spellsActual,
        DocType.name_respell, DocType.name_respell, truth]
      split_ifs with isOpen isNil expectsBoolean isBoolean
      · exact .inl rfl
      · exact .inl rfl
      · exact .inl rfl
      · rcases spells.isTruthClass_or expected.name with same | ⟨noClass, isLiteral, isChanged⟩
        · exact .inl (congrArg some same)
        · exact .inr ⟨congrArg some noClass, isBoolean, isLiteral, isChanged⟩
      · exact .inl rfl

/-- What two types say about each other when they are respelled. -/
def fitsRespelled (index : Index) (context : String) (spelling otherSpelling : String → String)
    (expected actual : DocUnion) : Bool :=
  index.isCompatible (expected.respell spelling) (actual.respell otherSpelling) context

theorem parametersFit_respell
    (spells : SpellsLiterals spelling)
    (spellsActual : SpellsLiterals otherSpelling)
    (expected actual : DocType) :
    parametersFit (fun e a => index.isCompatible e a context) (expected.respell spelling)
        (actual.respell otherSpelling) =
      parametersFit (index.fitsRespelled context spelling otherSpelling) expected actual := by
  have keys : index.isCompatible (expected.respell spelling).keyType
      (actual.respell otherSpelling).keyType context =
        index.fitsRespelled context spelling otherSpelling expected.keyType actual.keyType :=
    isCompatible_congr (DocUnion.mem_keyType_respell spells expected)
      (DocUnion.mem_keyType_respell spellsActual actual)
  have elements : index.isCompatible (expected.respell spelling).elementType
      (actual.respell otherSpelling).elementType context =
        index.fitsRespelled context spelling otherSpelling expected.elementType
          actual.elementType :=
    isCompatible_congr (DocUnion.mem_elementType_respell spells expected)
      (DocUnion.mem_elementType_respell spellsActual actual)
  simp only [parametersFit, DocType.isParameterized_respell,
    DocType.isKeyedContainer_respell spells, DocType.isKeyedContainer_respell spellsActual, keys,
    elements]

/-- Respelled alternatives fit as they did, except where a Boolean meets a truth value. -/
theorem alternativeFits_respell
    (knows : index.KnowsLiteralClasses context)
    (spells : SpellsLiterals spelling)
    (spellsActual : SpellsLiterals otherSpelling)
    (acceptsNil : Bool)
    (expected actual : DocType) :
    index.alternativeFits context acceptsNil (fun e a => index.isCompatible e a context)
          (expected.respell spelling) (actual.respell otherSpelling) =
        index.alternativeFits context acceptsNil
          (index.fitsRespelled context spelling otherSpelling) expected actual ∨
      index.alternativeFits context acceptsNil
          (index.fitsRespelled context spelling otherSpelling) expected actual = false ∧
        actual.isBoolean = true ∧ expected.name ∈ ["true", "false"] ∧
          spelling expected.name ≠ expected.name := by
  have classes : index.classesFit context (fun e a => index.isCompatible e a context)
      (expected.respell spelling) (actual.respell otherSpelling) =
        index.classesFit context (index.fitsRespelled context spelling otherSpelling) expected
          actual := by
    simp only [classesFit, DocType.name_respell, qualifyClass?_respell knows spells,
      qualifyClass?_respell knows spellsActual, parametersFit_respell spells spellsActual]
  rw [alternativeFits_eq, alternativeFits_eq, classes]
  rcases tagsFit?_respell spells spellsActual acceptsNil expected actual with
    same | ⟨decided, isApart⟩
  · exact .inl (by rw [same])
  · exact .inr ⟨by rw [decided, Option.getD_some], isApart⟩

theorem acceptsAll_respell
    (spells : SpellsLiterals spelling)
    (union : DocUnion) :
    acceptsAll (union.respell spelling) = acceptsAll union := by
  refine DocType.any_respell (fun type => ?_) union
  exact DocType.of_name_respell spells ["Object", "BasicObject", "undefined"].contains rfl rfl rfl

theorem fitsRespelled_iff
    (spells : SpellsLiterals spelling)
    (expected actual : DocUnion) :
    index.fitsRespelled context spelling otherSpelling expected actual = true ↔
      expected = [] ∨ acceptsAll expected = true ∨
        ∀ a ∈ actual, ∃ e ∈ expected,
          index.alternativeFits context expected.isNullable
            (fun e a => index.isCompatible e a context) (e.respell spelling)
            (a.respell otherSpelling) = true := by
  rw [fitsRespelled, isCompatible_iff, DocType.respell_eq_nil_iff, acceptsAll_respell spells,
    DocType.isNullable_respell spells]
  simp only [DocType.mem_respell, forall_exists_index, and_imp, forall_apply_eq_imp_iff₂,
    exists_exists_and_eq_and]

/-- Types that fit still fit when classes are written for literals. -/
theorem fitsRespelled_of_isCompatible
    (knows : index.KnowsLiteralClasses context)
    (spells : SpellsLiterals spelling)
    (spellsActual : SpellsLiterals otherSpelling)
    {expected actual : DocUnion}
    (fit : index.isCompatible expected actual context = true) :
    index.fitsRespelled context spelling otherSpelling expected actual = true := by
  induction depth : DocType.depthOfUnion expected using Nat.strongRecOn
    generalizing expected actual with
  | _ depth inductionHypothesis =>
      rw [isCompatible_iff] at fit
      rw [fitsRespelled_iff spells]
      refine fit.imp_right (Or.imp_right fun allFit a member => ?_)
      obtain ⟨e, isExpected, fits⟩ := allFit a member
      have deeper := DocType.depth_le_of_mem isExpected
      have keys := e.depthOfUnion_keyType_lt
      have elements := e.depthOfUnion_elementType_lt
      have fitsInside : index.alternativeFits context expected.isNullable
          (index.fitsRespelled context spelling otherSpelling) e a = true := by
        refine alternativeFits_mono id ?_ ?_ fits
        · exact fun fit => inductionHypothesis _ (by omega) fit rfl
        · exact fun fit => inductionHypothesis _ (by omega) fit rfl
      refine ⟨e, isExpected, ?_⟩
      rcases alternativeFits_respell knows spells spellsActual expected.isNullable e a with
        same | ⟨noFit, -⟩
      · rwa [same]
      · rw [noFit] at fitsInside
        cases fitsInside

/-- And what fits then, fitted before, unless a Boolean is compared with a truth value. -/
theorem isCompatible_of_fitsRespelled
    (knows : index.KnowsLiteralClasses context)
    (spells : SpellsLiterals spelling)
    (spellsActual : SpellsLiterals otherSpelling)
    {expected actual : DocUnion}
    (isApart : ∀ e a, DocUnion.Compares expected actual e a → a.isBoolean = true →
      e.name ∈ ["true", "false"] → spelling e.name = e.name)
    (fit : index.fitsRespelled context spelling otherSpelling expected actual = true) :
    index.isCompatible expected actual context = true := by
  induction depth : DocType.depthOfUnion expected using Nat.strongRecOn
    generalizing expected actual with
  | _ depth inductionHypothesis =>
      rw [fitsRespelled_iff spells] at fit
      rw [isCompatible_iff]
      refine fit.imp_right (Or.imp_right fun allFit a member => ?_)
      obtain ⟨e, isExpected, fits⟩ := allFit a member
      have deeper := DocType.depth_le_of_mem isExpected
      have keys := e.depthOfUnion_keyType_lt
      have elements := e.depthOfUnion_elementType_lt
      have fitsInside : index.alternativeFits context expected.isNullable
          (index.fitsRespelled context spelling otherSpelling) e a = true := by
        rcases alternativeFits_respell knows spells spellsActual expected.isNullable e a with
          same | ⟨-, isBoolean, isLiteral, isChanged⟩
        · rwa [← same]
        · exact absurd (isApart e a (.alternatives isExpected member) isBoolean isLiteral) isChanged
      refine ⟨e, isExpected, alternativeFits_mono id ?_ ?_ fitsInside⟩
      · refine fun fit => inductionHypothesis _ (by omega) ?_ fit rfl
        exact fun inner other isInside => isApart inner other (.keys isExpected member isInside)
      · refine fun fit => inductionHypothesis _ (by omega) ?_ fit rfl
        exact fun inner other isInside => isApart inner other (.elements isExpected member isInside)

section Interchange

variable {expected expected' actual actual' : DocUnion}

/-- What is accepted stays accepted under another spelling that no Boolean is compared with. -/
theorem isCompatible_of_respell_eq
    (knows : index.KnowsLiteralClasses context)
    (spells : SpellsLiterals spelling)
    (sameExpected : expected.respell spelling = expected'.respell spelling)
    (sameActual : actual.respell DocType.classOfLiteral = actual'.respell DocType.classOfLiteral)
    (isApart : ∀ e a, DocUnion.Compares expected' actual' e a → a.isBoolean = true →
      e.name ∈ ["true", "false"] → spelling e.name = e.name)
    (fit : index.isCompatible expected actual context = true) :
    index.isCompatible expected' actual' context = true := by
  have fitsClasses := fitsRespelled_of_isCompatible knows spells .classOfLiteral fit
  rw [fitsRespelled, sameExpected, sameActual] at fitsClasses
  exact isCompatible_of_fitsRespelled knows spells .classOfLiteral isApart fitsClasses

end Interchange

/--
Literals and their classes are interchangeable in actual types, and so are `nil` and its class in
documented ones.  What is accepted stays accepted when the literals of truth values change places
with their classes in documented types too, unless a Boolean is then compared with such a literal.
-/
theorem isCompatible_respelled
    (index : Index)
    (context : String)
    (knows : index.KnowsLiteralClasses context)
    (expected expected' actual actual' : DocUnion)
    (sameActual : actual.respell DocType.classOfLiteral = actual'.respell DocType.classOfLiteral) :
    (expected.respell DocType.classOfNil = expected'.respell DocType.classOfNil →
      index.isCompatible expected actual context = index.isCompatible expected' actual' context) ∧
    (expected.respell DocType.classOfLiteral = expected'.respell DocType.classOfLiteral →
      ¬DocUnion.ComparesTruth expected' actual' →
      index.isCompatible expected actual context = true →
      index.isCompatible expected' actual' context = true) := by
  constructor
  · intro sameExpected
    have keepsTruth : ∀ name ∈ ["true", "false"], DocType.classOfNil name = name := by decide
    rw [Bool.eq_iff_iff]
    constructor
    · exact isCompatible_of_respell_eq knows .classOfNil sameExpected sameActual
        fun e _ _ _ => keepsTruth e.name
    · exact isCompatible_of_respell_eq knows .classOfNil sameExpected.symm sameActual.symm
        fun e _ _ _ => keepsTruth e.name
  · intro sameExpected notTruth
    refine isCompatible_of_respell_eq knows .classOfLiteral sameExpected sameActual ?_
    exact fun e a compares isBoolean isLiteral =>
      absurd ⟨e, a, compares, isLiteral, isBoolean⟩ notTruth

namespace TruthValues

/-- `Array<true, nil>, Hash{Symbol => false}` -/
def withLiterals : DocUnion :=
  [.withOrdered "Array" [[.named "true", .named "nil"]],
    .withKeyed "Hash" [[.named "Symbol"]] [[.named "false"]]]

/-- The same type, with the classes of all literals. -/
def withClasses : DocUnion :=
  withLiterals.respell DocType.classOfLiteral

/-- Literals fit the classes that they are replaced with, and the other way round. -/
theorem isCompatible_withClasses :
    (Index.ofPins []).isCompatible withLiterals withClasses "" = true ∧
      (Index.ofPins []).isCompatible withClasses withLiterals "" = true := by
  have knows : (Index.ofPins []).KnowsLiteralClasses "" := by
    rw [Index.ofPins_eq_ofList]
    unfold KnowsLiteralClasses
    decide +kernel
  have same : withLiterals.respell DocType.classOfLiteral =
      withClasses.respell DocType.classOfLiteral := by
    decide
  have noBoolean : withLiterals.contains DocType.isBoolean = false ∧
      withClasses.contains DocType.isBoolean = false := by
    decide
  have itself : (Index.ofPins []).isCompatible withLiterals withLiterals "" = true := by
    rw [Index.ofPins_eq_ofList]
    decide +kernel
  constructor
  · have interchanged := isCompatible_respelled (Index.ofPins []) "" knows withLiterals withLiterals
      withLiterals withClasses same
    exact interchanged.2 rfl (DocUnion.not_comparesTruth_of_contains noBoolean.2) itself
  · have interchanged := isCompatible_respelled (Index.ofPins []) "" knows withLiterals withClasses
      withLiterals withLiterals rfl
    exact interchanged.2 same (DocUnion.not_comparesTruth_of_contains noBoolean.1) itself

/-- A Boolean fits the class of a truth value, but not the literal. -/
theorem isCompatible_literal_ne_class :
    ¬∀ (pins : List Pin) (expected expected' actual : DocUnion) (context : String),
      expected.respell DocType.classOfLiteral = expected'.respell DocType.classOfLiteral →
      (Index.ofPins pins).isCompatible expected actual context =
        (Index.ofPins pins).isCompatible expected' actual context := by
  intro interchangeable
  have same := interchangeable [] (.named "true") (.named "TrueClass") (.named "Boolean") ""
    (by decide)
  rw [Index.ofPins_eq_ofList] at same
  revert same
  decide +kernel

end TruthValues

end Index
end TagCheck
