import TagCheck.Proofs.DocType.Substitution

namespace TagCheck

/-!
# Placeholders and their values

`self` and the generic placeholders are filled by the same rule: the type is kept if it has none of
them at any depth, and otherwise each of them gives way to its value.  Filling `self` composes, and
filling first `self` and then the generic placeholders leaves none of them.

What stood on a placeholder is lost with it.  So a type that admits nil only by the question mark of
a placeholder admits it no longer, unless the value does.
-/

namespace DocType

/-- A tag that waits for the receiver. -/
def isPlaceholder (type : DocType) : Bool :=
  type.isSelf || type.isGeneric

/-- Nil fits an alternative for its question mark or for its name. -/
def admitsNil (type : DocType) : Bool :=
  type.nullable || type.isNil

end DocType

namespace DocUnion

/-- Fill the placeholders at every depth with their values. -/
def fill (placeholder : DocType → Bool) (value : DocType → DocUnion) (union : DocUnion) :
    DocUnion :=
  if union.contains placeholder then
    union.substitute fun type => if placeholder type then some (value type) else none
  else
    union

/-- No placeholder stands in a union, at any depth. -/
def IsFilled (union : DocUnion) : Prop :=
  ∀ type : DocType, type.IsWithin union → type.isPlaceholder = false

theorem isFilled_iff
    {union : DocUnion} :
    union.IsFilled ↔ union.contains DocType.isPlaceholder = false := by
  rw [← Bool.not_eq_true, contains_iff_exists_isWithin]
  simp [IsFilled]

instance (union : DocUnion) : Decidable union.IsFilled :=
  decidable_of_iff _ isFilled_iff.symm

theorem isDefined_eq_not
    {union : DocUnion} :
    union.isDefined = !union.isUndefined :=
  rfl

theorem selfTo_eq_fill
    {union receiver : DocUnion}
    (defined : receiver.isDefined = true) :
    union.selfTo receiver = union.fill DocType.isSelf fun _ => receiver := by
  rw [isDefined_eq_not, Bool.not_eq_true'] at defined
  rw [selfTo, fill, defined, Bool.false_or]
  cases union.contains DocType.isSelf <;> rfl

theorem resolveGenerics_eq_fill
    {union : DocUnion}
    {receiver : DocType} :
    union.resolveGenerics receiver = union.fill DocType.isGeneric (genericValue receiver) :=
  rfl

section Filling

variable {placeholder : DocType → Bool} {value : DocType → DocUnion} {union : DocUnion}

theorem fill_of_none
    (noPlaceholder : union.contains placeholder = false) :
    union.fill placeholder value = union := by
  rw [fill, noPlaceholder, if_neg Bool.false_ne_true]

theorem fill_of_some
    (hasPlaceholder : union.contains placeholder = true) :
    union.fill placeholder value =
      union.substitute fun type => if placeholder type then some (value type) else none := by
  rw [fill, hasPlaceholder, if_pos rfl]

/-- What stands in a filled type stands in a value, or was no placeholder. -/
theorem exists_of_isWithin_fill
    {type : DocType}
    (isWithin : type.IsWithin (union.fill placeholder value)) :
    (∃ written, placeholder written = true ∧ type.IsWithin (value written)) ∨
      ∃ written : DocType, written.IsWithin union ∧ placeholder written = false ∧
        type.name = written.name := by
  cases contains : union.contains placeholder with
  | false =>
      rw [fill_of_none contains] at isWithin
      refine .inr ⟨type, isWithin, Bool.eq_false_iff.mpr fun isPlaceholder => ?_, rfl⟩
      rw [contains_of_isWithin isWithin isPlaceholder] at contains
      cases contains
  | true =>
      rw [fill_of_some contains] at isWithin
      obtain ⟨written, isWritten, origin⟩ := exists_of_isWithin_substitute isWithin
      cases isPlaceholder : placeholder written with
      | false =>
          simp only [isPlaceholder, Bool.false_eq_true, if_false, reduceCtorEq, false_and,
            exists_false, false_or, true_and] at origin
          exact .inr ⟨written, isWritten, isPlaceholder, origin⟩
      | true =>
          simp only [isPlaceholder, if_true, reduceCtorEq, false_and, or_false,
            Option.some.injEq, exists_eq_left'] at origin
          exact .inl ⟨written, isPlaceholder, origin⟩

/-- A placeholder in a union has its value in its place, and all else is there as before. -/
theorem exists_mem_fill_iff
    {property : DocType → Prop}
    (ofShape : ∀ type change, property (type.mapParameters change) ↔ property type) :
    (∃ type ∈ union.fill placeholder value, property type) ↔
      (∃ type ∈ union, placeholder type = false ∧ property type) ∨
        ∃ type ∈ union, placeholder type = true ∧ ∃ inner ∈ value type, property inner := by
  cases contains : union.contains placeholder with
  | false =>
      have kept : ∀ type ∈ union, placeholder type = false := by
        intro type member
        refine Bool.eq_false_iff.mpr fun isPlaceholder => ?_
        rw [contains_of_isWithin (.alternative member) isPlaceholder] at contains
        cases contains
      rw [fill_of_none contains]
      constructor
      · rintro ⟨type, member, holds⟩
        exact .inl ⟨type, member, kept type member, holds⟩
      · rintro (⟨type, member, -, holds⟩ | ⟨type, member, isPlaceholder, -⟩)
        · exact ⟨type, member, holds⟩
        · rw [kept type member] at isPlaceholder
          cases isPlaceholder
  | true =>
      rw [fill_of_some contains, exists_mem_substitute_iff, ← exists_or]
      refine exists_congr fun written => ?_
      rw [← and_or_left]
      refine and_congr_right fun _ => ?_
      by_cases isPlaceholder : placeholder written = true
      · rw [DocType.substitute_of_replaced (if_pos isPlaceholder)]
        simp [isPlaceholder]
      · rw [DocType.substitute_of_kept (if_neg isPlaceholder)]
        simp [isPlaceholder, ofShape written]

/-- A filled type is unknown exactly if it has nothing but placeholders without a known value. -/
theorem isUndefined_fill_iff :
    (union.fill placeholder value).isUndefined = true ↔
      ∀ type ∈ union, placeholder type = true ∧ (value type).isUndefined = true := by
  have unknown : ∀ some : DocUnion, some.isUndefined = true ↔ ¬∃ type ∈ some, True := by
    intro some
    cases some <;> simp [isUndefined]
  rw [unknown, exists_mem_fill_iff fun _ _ => Iff.rfl]
  simp only [unknown]
  grind

variable (sameOfName : ∀ type other : DocType, type.name = other.name →
  placeholder type = placeholder other)
include sameOfName

/-- No placeholder is left by a value that has none. -/
theorem contains_fill_of_none
    (noPlaceholder : ∀ written, (value written).contains placeholder = false) :
    (union.fill placeholder value).contains placeholder = false := by
  rw [Bool.eq_false_iff]
  intro contains
  obtain ⟨type, isWithin, isPlaceholder⟩ := contains_iff_exists_isWithin.mp contains
  rcases exists_of_isWithin_fill isWithin with ⟨written, -, isInValue⟩ | ⟨written, -, kept, same⟩
  · have found := contains_of_isWithin isInValue isPlaceholder
    rw [noPlaceholder written] at found
    cases found
  · rw [sameOfName type written same, kept] at isPlaceholder
    cases isPlaceholder

/-- Filling twice is filling once, with the first value filled with the second one. -/
theorem fill_fill
    (first second : DocUnion) :
    ((union.fill placeholder fun _ => first).fill placeholder fun _ => second) =
      union.fill placeholder fun _ => first.fill placeholder fun _ => second := by
  cases inUnion : union.contains placeholder with
  | false =>
      rw [fill_of_none inUnion, fill_of_none inUnion, fill_of_none inUnion]
  | true =>
      cases inFirst : first.contains placeholder with
      | false =>
          have noneLeft : (union.fill placeholder fun _ => first).contains placeholder = false :=
            contains_fill_of_none sameOfName fun _ => inFirst
          rw [fill_of_none noneLeft, fill_of_none inFirst]
      | true =>
          -- A placeholder of the first value gets into the outcome, so that the second is used.
          obtain ⟨written, isWritten, isPlaceholder⟩ := contains_iff_exists_isWithin.mp inUnion
          obtain ⟨inner, isInner, isAgain⟩ := contains_iff_exists_isWithin.mp inFirst
          have someLeft : (union.substitute fun type =>
              if placeholder type then some first else none).contains placeholder = true :=
            contains_of_isWithin (isWithin_substitute isWritten isPlaceholder isInner) isAgain
          rw [fill_of_some inUnion, fill_of_some inUnion, fill_of_some inFirst,
            fill_of_some someLeft, substitute_substitute]
          · congr 1
            funext type
            cases placeholder type <;> rfl
          · intro type change kept
            rw [sameOfName (type.mapParameters change) type rfl]
            cases isPlaceholder : placeholder type with
            | false =>
                rfl
            | true =>
                rw [isPlaceholder, if_pos rfl] at kept
                cases kept

end Filling

theorem isSelf_eq_of_name
    (type other : DocType)
    (sameName : type.name = other.name) :
    type.isSelf = other.isSelf := by
  rw [DocType.isSelf, DocType.isSelf, sameName]

theorem isGeneric_eq_of_name
    (type other : DocType)
    (sameName : type.name = other.name) :
    type.isGeneric = other.isGeneric := by
  rw [DocType.isGeneric, DocType.isGeneric, sameName]

section SelfReplacement

variable {union receiver other : DocUnion}

theorem selfTo_of_undefined
    (undefined : receiver.isDefined = false) :
    union.selfTo receiver = union := by
  rw [isDefined_eq_not, Bool.not_eq_false'] at undefined
  rw [selfTo, undefined, Bool.true_or, if_pos rfl]

/-- A known type stays known if it is filled with a known one. -/
theorem isDefined_selfTo
    (defined : receiver.isDefined = true)
    (otherDefined : other.isDefined = true) :
    (receiver.selfTo other).isDefined = true := by
  rw [selfTo_eq_fill otherDefined, isDefined_eq_not, Bool.not_eq_true', Bool.eq_false_iff]
  intro undefined
  have notEmpty : receiver ≠ [] := by
    rintro rfl
    cases defined
  obtain ⟨type, others, rfl⟩ := List.exists_cons_of_ne_nil notEmpty
  have unknown := (isUndefined_fill_iff.mp undefined type List.mem_cons_self).2
  rw [isDefined_eq_not, unknown] at otherDefined
  cases otherDefined

/--
Filling `self` composes: filling in a receiver and then another one is filling in the first receiver
with the other one filled into it.
-/
theorem selfTo_selfTo
    (defined : receiver.isDefined = true)
    (union other : DocUnion) :
    (union.selfTo receiver).selfTo other = union.selfTo (receiver.selfTo other) := by
  cases otherDefined : other.isDefined with
  | false =>
      rw [selfTo_of_undefined otherDefined, selfTo_of_undefined otherDefined]
  | true =>
      have filled := isDefined_selfTo defined otherDefined
      rw [selfTo_eq_fill filled, selfTo_eq_fill defined, selfTo_eq_fill otherDefined,
        selfTo_eq_fill otherDefined]
      exact fill_fill isSelf_eq_of_name receiver other

end SelfReplacement

end DocUnion

namespace NestedSelf

/-! An array of `self` beside `self`, first with a list of `self` or nil, then with a tree. -/

def written : DocUnion :=
  [.withOrdered "Array" [[.named "self"]], .named "self"]

def receiver : DocUnion :=
  [.withOrdered "List" [[.named "self"]], .named "nil"]

def outcome : DocUnion :=
  [.withOrdered "Array" [[.withOrdered "List" [[.named "Tree"]], .named "nil"]],
    .withOrdered "List" [[.named "Tree"]], .named "nil"]

theorem selfTo_list_of_tree :
    receiver.isDefined = true ∧
      (written.selfTo receiver).selfTo (.named "Tree") = outcome ∧
      written.selfTo (receiver.selfTo (.named "Tree")) = outcome := by
  have isOutcome : (written.selfTo receiver).selfTo (.named "Tree") = outcome := by
    decide +kernel
  exact ⟨rfl, isOutcome, (DocUnion.selfTo_selfTo rfl written (.named "Tree")).symm.trans isOutcome⟩

end NestedSelf

namespace DocUnion

/-- What stands in the value of a generic placeholder stands in the parameters of the receiver. -/
theorem isWithin_of_genericValue
    {receiver placeholder type : DocType}
    (isWithin : type.IsWithin (genericValue receiver placeholder)) :
    type.IsWithin [receiver] := by
  refine isWithin.of_inside (List.mem_singleton_self receiver) fun inner member => ?_
  unfold genericValue at member
  split at member
  · split at member
    · exact DocType.exists_of_mem_keyType member
    · exact DocType.exists_of_mem_elementType member
  · exact DocType.exists_of_mem_elementType member

/--
A receiver without placeholders leaves none in a type, at any depth, once it is filled in for `self`
and then for the generic placeholders.
-/
theorem isFilled_specialized
    {receiver : DocType}
    (filled : IsFilled [receiver])
    (union : DocUnion) :
    ((union.selfTo [receiver]).resolveGenerics receiver).IsFilled := by
  have receiverHasNoSelf : contains DocType.isSelf [receiver] = false := by
    rw [Bool.eq_false_iff]
    intro contains
    obtain ⟨type, isWithin, isSelf⟩ := contains_iff_exists_isWithin.mp contains
    have notPlaceholder := filled type isWithin
    rw [DocType.isPlaceholder, isSelf, Bool.true_or] at notPlaceholder
    cases notPlaceholder
  have noSelf : (union.selfTo [receiver]).contains DocType.isSelf = false := by
    rw [selfTo_eq_fill rfl]
    exact contains_fill_of_none isSelf_eq_of_name fun _ => receiverHasNoSelf
  intro type isWithin
  rw [resolveGenerics_eq_fill] at isWithin
  rcases exists_of_isWithin_fill isWithin with
    ⟨written, -, isInValue⟩ | ⟨written, isWritten, notGeneric, sameName⟩
  · exact filled type (isWithin_of_genericValue isInValue)
  · have notSelf : written.isSelf = false := by
      refine Bool.eq_false_iff.mpr fun isSelf => ?_
      rw [contains_of_isWithin isWritten isSelf] at noSelf
      cases noSelf
    rw [DocType.isPlaceholder, isSelf_eq_of_name type written sameName,
      isGeneric_eq_of_name type written sameName, notSelf, notGeneric, Bool.false_or]

end DocUnion

namespace KeyedReceiver

/-! A hash of entries, seen by a hash of arrays under symbols. -/

def receiver : DocType :=
  .withKeyed "Hash" [[.named "Symbol"]] [[.withOrdered "Array" [[.named "String"]]]]

def generic (name : String) : DocUnion :=
  [.withOrdered "generic" [[.named name]]]

def written : DocUnion :=
  [.withKeyed "Hash" [generic "K"] [[.withOrdered "Entry" [generic "V", [.named "self"]]]],
    .named "self"]

def outcome : DocUnion :=
  [.withKeyed "Hash" [[.named "Symbol"]]
    [[.withOrdered "Entry" [[.withOrdered "Array" [[.named "String"]]], [receiver]]]], receiver]

theorem isFilled_entries :
    DocUnion.IsFilled [receiver] ∧
      (written.selfTo [receiver]).resolveGenerics receiver = outcome ∧ outcome.IsFilled := by
  have filled : DocUnion.IsFilled [receiver] := by
    decide +kernel
  have isOutcome : (written.selfTo [receiver]).resolveGenerics receiver = outcome := by
    decide +kernel
  exact ⟨filled, isOutcome, isOutcome ▸ DocUnion.isFilled_specialized filled written⟩

end KeyedReceiver

namespace DocUnion

section Nil

variable {union : DocUnion}

theorem isNullable_iff :
    union.isNullable = true ↔ ∃ type ∈ union, type.admitsNil = true := by
  simp [isNullable, DocType.admitsNil]

theorem isNullable_fill_iff
    {placeholder : DocType → Bool}
    {value : DocType → DocUnion} :
    (union.fill placeholder value).isNullable = true ↔
      (∃ type ∈ union, placeholder type = false ∧ type.admitsNil = true) ∨
        ∃ type ∈ union, placeholder type = true ∧ (value type).isNullable = true := by
  simp only [isNullable_iff]
  exact exists_mem_fill_iff fun _ _ => Iff.rfl

/--
A type that admits nil still does so with a receiver for `self` exactly if an alternative admits it
that is not `self`, or the receiver does.  With a receiver for the generic placeholders it admits nil,
or nothing is known about it, exactly if an alternative admits it that is none of them, or a value
does, or there are only placeholders and nothing is known about their values.
-/
theorem isNullable_filled_iff
    (nullable : union.isNullable = true) :
    (∀ receiver : DocUnion, receiver.isDefined = true →
        ((union.selfTo receiver).isNullable = true ↔
          (∃ type ∈ union, type.isSelf = false ∧ type.admitsNil = true) ∨
            receiver.isNullable = true)) ∧
      ∀ receiver : DocType,
        ((union.resolveGenerics receiver).isNullable = true ∨
            (union.resolveGenerics receiver).isUndefined = true ↔
          (∃ type ∈ union, type.isGeneric = false ∧ type.admitsNil = true) ∨
            (∃ type ∈ union, type.isGeneric = true ∧
              (genericValue receiver type).isNullable = true) ∨
            ∀ type ∈ union, type.isGeneric = true ∧
              (genericValue receiver type).isUndefined = true) := by
  constructor
  · intro receiver defined
    rw [selfTo_eq_fill defined, isNullable_fill_iff]
    constructor
    · rintro (kept | ⟨type, -, -, ofReceiver⟩)
      · exact .inl kept
      · exact .inr ofReceiver
    · rintro (kept | ofReceiver)
      · exact .inl kept
      · obtain ⟨type, member, admits⟩ := isNullable_iff.mp nullable
        cases isSelf : type.isSelf with
        | false =>
            exact .inl ⟨type, member, isSelf, admits⟩
        | true =>
            exact .inr ⟨type, member, isSelf, ofReceiver⟩
  · intro receiver
    rw [resolveGenerics_eq_fill, isNullable_fill_iff, isUndefined_fill_iff, or_assoc]

end Nil

end DocUnion

namespace OptionalPlaceholder

/-! A question mark on `self`, alone and beside nil, and the same with a generic placeholder. -/

def optionalSelf : DocType :=
  { DocType.named "self" with nullable := true }

def optionalElement : DocType :=
  { DocType.withOrdered "generic" [[.named "T"]] with nullable := true }

def strings : DocType :=
  .withOrdered "Array" [[.named "String"]]

theorem isNullable_beside_nil :
    DocUnion.isNullable [optionalSelf, .named "nil"] = true ∧
      (DocUnion.named "Foo").isDefined = true ∧
      (DocUnion.selfTo [optionalSelf, .named "nil"] (.named "Foo")).isNullable = true ∧
      DocUnion.isNullable [optionalElement, .named "nil"] = true ∧
      ((DocUnion.resolveGenerics [optionalElement, .named "nil"] strings).isNullable = true ∨
        (DocUnion.resolveGenerics [optionalElement, .named "nil"] strings).isUndefined = true) := by
  have ofSelf : DocUnion.isNullable [optionalSelf, .named "nil"] = true := by
    decide
  have ofElement : DocUnion.isNullable [optionalElement, .named "nil"] = true := by
    decide
  have isNil : DocType.named "nil" ∈ [optionalSelf, .named "nil"] := by
    decide
  have isNilToo : DocType.named "nil" ∈ [optionalElement, .named "nil"] := by
    decide
  refine ⟨ofSelf, rfl, ?_, ofElement, ?_⟩
  · exact ((DocUnion.isNullable_filled_iff ofSelf).1 (.named "Foo") rfl).mpr
      (.inl ⟨_, isNil, by decide, by decide⟩)
  · exact ((DocUnion.isNullable_filled_iff ofElement).2 strings).mpr
      (.inl ⟨_, isNilToo, by decide, by decide⟩)

theorem isNullable_lost :
    (DocUnion.isNullable [optionalSelf] = true ∧ (DocUnion.named "Foo").isDefined = true ∧
        (DocUnion.selfTo [optionalSelf] (.named "Foo")).isNullable = false) ∧
      DocUnion.isNullable [optionalElement] = true ∧
        (DocUnion.resolveGenerics [optionalElement] strings).isNullable = false ∧
        (DocUnion.resolveGenerics [optionalElement] strings).isUndefined = false := by
  decide +kernel

end OptionalPlaceholder

end TagCheck
