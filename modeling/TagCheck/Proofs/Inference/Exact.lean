import TagCheck.Proofs.Inference.Settled

namespace TagCheck

/-!
# Exact memories

A memory is exact if all types in it are settled, and if the inference of each remembered pin
follows from the memory again.  More memory leads to the same results.
-/

namespace Memo

/-- Every pin with a type in one memory has a type in another one. -/
def IsWithin (memo other : Memo) : Prop :=
  ∀ id, (memo.lookup id).isSome → (other.lookup id).isSome

theorem IsWithin.refl
    (memo : Memo) :
    memo.IsWithin memo :=
  fun _ found => found

theorem IsWithin.trans
    {memo other third : Memo}
    (first : memo.IsWithin other)
    (second : other.IsWithin third) :
    memo.IsWithin third :=
  fun id found => second id (first id found)

theorem lookup_cons_of_ne
    (memo : Memo)
    {id other : PinId}
    (ne : other ≠ id)
    (type : DocUnion) :
    List.lookup other ((id, type) :: memo) = memo.lookup other := by
  rw [List.lookup_cons, beq_false_of_ne ne]

/-- One more type forgets nothing. -/
theorem isWithin_cons
    (memo : Memo)
    (id : PinId)
    (type : DocUnion) :
    memo.IsWithin ((id, type) :: memo) := by
  intro other found
  by_cases same : other = id
  · rw [same, List.lookup_cons_self]
    rfl
  · rw [lookup_cons_of_ne memo same]
    exact found

/-- One more type stays within a memory that has it. -/
theorem cons_isWithin
    {memo other : Memo}
    (within : memo.IsWithin other)
    {id : PinId}
    (remembered : (other.lookup id).isSome)
    (type : DocUnion) :
    IsWithin ((id, type) :: memo) other := by
  intro asked found
  by_cases same : asked = id
  · rw [same]
    exact remembered
  · rw [lookup_cons_of_ne memo same] at found
    exact within asked found

theorem knownType?_of_declared
    {memo : Memo}
    {pin : Pin}
    {type : DocUnion}
    (declared : pin.declaredType? = some type) :
    memo.knownType? pin = some type := by
  simp only [knownType?, declared]

theorem knownType?_of_undeclared
    {memo : Memo}
    {pin : Pin}
    (undeclared : pin.declaredType? = none) :
    memo.knownType? pin = memo.lookup pin.id := by
  simp only [knownType?, undeclared]

theorem undeclared_of_unknown
    {memo : Memo}
    {pin : Pin}
    (unknown : memo.knownType? pin = none) :
    pin.declaredType? = none := by
  cases declared : pin.declaredType? with
  | none =>
      rfl
  | some type =>
      rw [knownType?_of_declared declared] at unknown
      cases unknown

/-- What a greater memory does not know is unknown. -/
theorem IsWithin.unknown
    {memo greater : Memo}
    (within : memo.IsWithin greater)
    {pin : Pin}
    (unknown : greater.knownType? pin = none) :
    memo.knownType? pin = none := by
  have undeclared := undeclared_of_unknown unknown
  rw [knownType?_of_undeclared undeclared] at unknown ⊢
  cases remembered : memo.lookup pin.id with
  | none =>
      rfl
  | some type =>
      have found := within pin.id (by rw [remembered]; rfl)
      rw [unknown] at found
      cases found

end Memo

namespace Snapshot

/-- All types in a memory are settled. -/
def IsSettled (snapshot : Snapshot) (memo : Memo) : Prop :=
  ∀ pin ∈ snapshot.pins, ∀ type, memo.lookup pin.id = some type →
    snapshot.Settles (.typeOf pin) type

/-- All types in a memory are settled, and follow from the memory again. -/
structure IsExact (snapshot : Snapshot) (memo : Memo) : Prop where
  settled : snapshot.IsSettled memo
  closed : ∀ pin ∈ snapshot.pins, ∀ type, memo.lookup pin.id = some type →
    snapshot.Recalls memo (snapshot.inferAnew pin) type

theorem isExact_nil
    (snapshot : Snapshot) :
    snapshot.IsExact [] where
  settled := nofun
  closed := nofun

variable {snapshot : Snapshot}

/-- A known pin without a declared type is a pin of the snapshot. -/
theorem Knows.mem_pins
    {pin : Pin}
    (known : snapshot.Knows pin)
    (undeclared : pin.declaredType? = none) :
    pin ∈ snapshot.pins := by
  rcases known with member | declared
  · exact member
  · simp [PinOf.declaredType?, declared] at undeclared

/-- Settled memories know settled types only. -/
theorem IsSettled.settles_known
    {memo : Memo}
    (settled : snapshot.IsSettled memo)
    {pin : Pin}
    (asked : snapshot.Knows pin)
    {type : DocUnion}
    (known : memo.knownType? pin = some type) :
    snapshot.Settles (.typeOf pin) type := by
  cases declared : pin.declaredType? with
  | some other =>
      rw [Memo.knownType?_of_declared declared] at known
      cases known
      exact .typeOf_known declared
  | none =>
      rw [Memo.knownType?_of_undeclared declared] at known
      exact settled pin (asked.mem_pins declared) type known

section Built

variable (built : snapshot.IsBuilt)
include built

/-- What follows from a settled memory is settled. -/
theorem IsSettled.settles_of_recalls
    {memo : Memo}
    (settled : snapshot.IsSettled memo)
    {inquiry : Inquiry α}
    (asks : inquiry.AsksOnly snapshot.Knows)
    {result : α}
    (recalled : snapshot.Recalls memo inquiry result) :
    snapshot.Settles inquiry result := by
  obtain ⟨depth, recalled⟩ := recalled
  induction recalled with
  | answer depth result =>
      exact .answer result
  | known isKnown _ restHypothesis =>
      exact .ask (settled.settles_known asks.1 isKnown) (restHypothesis (asks.2 _))
  | opened unknown _ _ _ insideHypothesis restHypothesis =>
      have inside := insideHypothesis (inferAnew_asksOnly built.listed _)
      have undeclared := Memo.undeclared_of_unknown unknown
      exact .ask (.typeOf_opened undeclared rfl inside) (restHypothesis (asks.2 _))

/-- What follows from a memory follows from any greater one. -/
theorem IsSettled.recalls_mono
    {memo greater : Memo}
    (settled : snapshot.IsSettled memo)
    (greaterSettled : snapshot.IsSettled greater)
    (within : memo.IsWithin greater)
    {inquiry : Inquiry α}
    (asks : inquiry.AsksOnly snapshot.Knows)
    {result : α}
    (recalled : snapshot.Recalls memo inquiry result) :
    snapshot.Recalls greater inquiry result := by
  obtain ⟨depth, recalled⟩ := recalled
  induction recalled with
  | answer depth result =>
      exact .answer result
  | @known _ _ pin type _ _ isKnown _ restHypothesis =>
      refine .ask ?_ (restHypothesis (asks.2 _))
      cases declared : pin.declaredType? with
      | some other =>
          rw [Memo.knownType?_of_declared declared] at isKnown
          cases isKnown
          exact .typeOf_known (Memo.knownType?_of_declared declared)
      | none =>
          have remembered := isKnown
          rw [Memo.knownType?_of_undeclared declared] at remembered
          obtain ⟨other, found⟩ :=
            Option.isSome_iff_exists.mp (within pin.id (by rw [remembered]; rfl))
          rw [← Memo.knownType?_of_undeclared declared] at found
          have same : type = other :=
            (settled.settles_known asks.1 isKnown).unique (greaterSettled.settles_known asks.1 found)
          rw [same]
          exact .typeOf_known found
  | @opened _ _ pin type _ _ unknown opens inside _ insideHypothesis restHypothesis =>
      refine .ask ?_ (restHypothesis (asks.2 _))
      have insideAsks := inferAnew_asksOnly built.listed pin
      cases found : Memo.knownType? greater pin with
      | none =>
          exact .typeOf_opened found opens (insideHypothesis insideAsks)
      | some other =>
          -- The greater memory knows the pin, and so it has the only settled type.
          have undeclared := Memo.undeclared_of_unknown unknown
          have insideSettles :=
            IsSettled.settles_of_recalls built settled insideAsks ⟨_, inside⟩
          have same : type = other :=
            Derives.unique (.typeOf_opened undeclared rfl insideSettles)
              (greaterSettled.settles_known asks.1 found)
          rw [same]
          exact .typeOf_known found

/-- A settled type that follows from an exact memory may be added to it. -/
theorem IsExact.cons
    {memo : Memo}
    (isExact : snapshot.IsExact memo)
    {pin : Pin}
    (member : pin ∈ snapshot.pins)
    {type : DocUnion}
    (settles : snapshot.Settles (.typeOf pin) type)
    (recalled : snapshot.Recalls memo (snapshot.inferAnew pin) type) :
    snapshot.IsExact ((pin.id, type) :: memo) := by
  have settled : snapshot.IsSettled ((pin.id, type) :: memo) := by
    intro asked askedMember found remembered
    by_cases same : asked.id = pin.id
    · cases built.eq_of_id_eq askedMember member same
      rw [List.lookup_cons_self] at remembered
      cases remembered
      exact settles
    · rw [Memo.lookup_cons_of_ne memo same] at remembered
      exact isExact.settled asked askedMember found remembered
  refine ⟨settled, ?_⟩
  intro asked askedMember found remembered
  refine IsSettled.recalls_mono built isExact.settled settled (memo.isWithin_cons pin.id type)
    (inferAnew_asksOnly built.listed asked) ?_
  by_cases same : asked.id = pin.id
  · cases built.eq_of_id_eq askedMember member same
    rw [List.lookup_cons_self] at remembered
    cases remembered
    exact recalled
  · rw [Memo.lookup_cons_of_ne memo same] at remembered
    exact isExact.closed asked askedMember found remembered

end Built

end Snapshot

end TagCheck
