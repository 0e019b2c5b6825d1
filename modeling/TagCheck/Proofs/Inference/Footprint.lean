import TagCheck.Proofs.Inference.Runs

namespace TagCheck

/-!
# What queries read and remember

A query of a snapshot reads only what is remembered for pins of the snapshot, and remembers types for
them alone.  So memories that agree on those pins are all the same to it, and whatever is remembered
for other pins stays as it is.
-/

namespace Snapshot

/--
A query: an inquiry about pins of the snapshot is carried out, or what is remembered for one of them
is looked up, and other queries may follow.
-/
inductive IsQuery (snapshot : Snapshot) : {α : Type} → Inferring α → Prop
  | answer {α : Type} (result : α) : IsQuery snapshot (pure result)
  | infer {α : Type} {inquiry : Inquiry α} (asks : inquiry.AsksOnly snapshot.Knows) :
      IsQuery snapshot (snapshot.infer inquiry)
  | remembered {pin : Pin} (member : pin ∈ snapshot.pins) :
      IsQuery snapshot (Inferring.remembered? pin)
  | andThen {α β : Type} {first : Inferring α} {next : α → Inferring β}
      (isFirst : IsQuery snapshot first) (areNext : ∀ result, IsQuery snapshot (next result)) :
      IsQuery snapshot (first >>= next)

/-- A type may be remembered for the identity: it belongs to a pin of the snapshot with a memory. -/
def Remembers (snapshot : Snapshot) (id : PinId) : Prop :=
  ∃ pin ∈ snapshot.pins, pin.isRemembered = true ∧ pin.id = id

/-- Equally much was cut off, and the memories agree on the pins of a snapshot. -/
structure AgreeOn (snapshot : Snapshot) (first second : InferenceState) : Prop where
  lookup_eq : ∀ pin ∈ snapshot.pins, first.memo.lookup pin.id = second.memo.lookup pin.id
  cycles_eq : first.cycles = second.cycles
  overruns_eq : first.overruns = second.overruns

/-- States that agree on a snapshot make no difference to a computation, and agree behind it. -/
def Respects (snapshot : Snapshot) (computation : Inferring α) : Prop :=
  ∀ first second, snapshot.AgreeOn first second →
    (computation.run first).1 = (computation.run second).1 ∧
      snapshot.AgreeOn (computation.run first).2 (computation.run second).2

variable {snapshot : Snapshot}

section Remembering

variable {id : PinId} (isOther : ¬snapshot.Remembers id)

/-- If single questions leave what is remembered for a pin, so do inquiries. -/
theorem lookup_follow
    {source : Pin → Inferring DocUnion}
    (leaves : ∀ pin, snapshot.Knows pin → ∀ before : InferenceState,
      ((source pin).run before).2.memo.lookup id = before.memo.lookup id)
    {inquiry : Inquiry α}
    (asks : inquiry.AsksOnly snapshot.Knows)
    (before : InferenceState) :
    ((inquiry.follow source).run before).2.memo.lookup id = before.memo.lookup id := by
  induction inquiry generalizing before with
  | answer result =>
      rfl
  | ask pin next inductionHypothesis =>
      exact (inductionHypothesis _ (asks.2 _) _).trans (leaves pin asks.1 before)

variable (listed : snapshot.index.IsListed)
include isOther listed

/-- The inference of a pin remembers nothing for pins outside of the snapshot. -/
theorem lookup_typeOfPinWithin
    (limit : Nat)
    (active : List PinId)
    {pin : Pin}
    (asked : snapshot.Knows pin)
    (before : InferenceState) :
    ((snapshot.typeOfPinWithin limit active pin).run before).2.memo.lookup id =
      before.memo.lookup id := by
  induction limit generalizing active pin before with
  | zero =>
      obtain ⟨type, after, outcome, run⟩ := snapshot.exists_pinRun 0 active pin before
      rw [outcome]
      cases run <;> rfl
  | succ limit inductionHypothesis =>
      have inside :
          (((snapshot.inferAnew pin).follow
            (snapshot.typeOfPinWithin limit (pin.id :: active))).run before).2.memo.lookup id =
              before.memo.lookup id :=
        lookup_follow (fun _ known => inductionHypothesis (pin.id :: active) known)
          (inferAnew_asksOnly listed pin) before
      obtain ⟨type, after, outcome, run⟩ := snapshot.exists_pinRun (limit + 1) active pin before
      rw [outcome]
      cases run with
      | known | cyclic =>
          rfl
      | forgotten unknown notActive ran =>
          rwa [ran] at inside
      | remembered unknown notActive ran uncut isRemembered =>
          rw [ran] at inside
          have member := asked.mem_pins (Memo.undeclared_of_unknown unknown)
          have isElse : id ≠ pin.id := by
            rintro rfl
            exact isOther ⟨pin, member, isRemembered, rfl⟩
          exact (Memo.lookup_cons_of_ne _ isElse _).trans inside

/-- A query remembers nothing for pins outside of its snapshot. -/
theorem IsQuery.lookup_eq
    {α : Type}
    {query : Inferring α}
    (isQuery : snapshot.IsQuery query)
    (before : InferenceState) :
    (query.run before).2.memo.lookup id = before.memo.lookup id := by
  induction isQuery generalizing before with
  | answer result =>
      rfl
  | infer asks =>
      exact lookup_follow
        (fun _ asked => lookup_typeOfPinWithin isOther listed maxInferenceDepth [] asked) asks before
  | remembered member =>
      rfl
  | andThen isFirst areNext firstHypothesis nextHypothesis =>
      exact (nextHypothesis _ _).trans (firstHypothesis before)

end Remembering

section Reading

namespace Respects

theorem pure
    (result : α) :
    snapshot.Respects (Pure.pure result) :=
  fun _ _ agree => ⟨rfl, agree⟩

theorem bind
    {computation : Inferring α}
    {rest : α → Inferring β}
    (first : snapshot.Respects computation)
    (second : ∀ result, snapshot.Respects (rest result)) :
    snapshot.Respects (computation >>= rest) := by
  intro before other agree
  obtain ⟨sameResult, agreeBetween⟩ := first before other agree
  have sameRest := second (computation.run before).1 _ _ agreeBetween
  have otherRun :
      (computation >>= rest).run other =
        (rest (computation.run before).1).run (computation.run other).2 := by
    rw [sameResult]
    rfl
  rw [otherRun]
  exact sameRest

/-- If single questions make no difference between agreeing states, neither do inquiries. -/
theorem follow
    {source : Pin → Inferring DocUnion}
    (each : ∀ pin, snapshot.Knows pin → snapshot.Respects (source pin))
    {inquiry : Inquiry α}
    (asks : inquiry.AsksOnly snapshot.Knows) :
    snapshot.Respects (inquiry.follow source) := by
  induction inquiry with
  | answer result =>
      exact .pure result
  | ask pin next inductionHypothesis =>
      exact .bind (each pin asks.1) fun type => inductionHypothesis type (asks.2 type)

end Respects

namespace AgreeOn

variable {first second : InferenceState}

/-- Agreeing states know the same type of a pin that the snapshot knows. -/
theorem knownType?_eq
    (agree : snapshot.AgreeOn first second)
    {pin : Pin}
    (asked : snapshot.Knows pin) :
    first.memo.knownType? pin = second.memo.knownType? pin := by
  cases declared : pin.declaredType? with
  | some type =>
      rw [Memo.knownType?_of_declared declared, Memo.knownType?_of_declared declared]
  | none =>
      rw [Memo.knownType?_of_undeclared declared, Memo.knownType?_of_undeclared declared]
      exact agree.lookup_eq pin (asked.mem_pins declared)

theorem cutOffs_eq
    (agree : snapshot.AgreeOn first second) :
    first.cutOffs = second.cutOffs := by
  rw [InferenceState.cutOffs, InferenceState.cutOffs, agree.cycles_eq, agree.overruns_eq]

/-- States that remember one more type alike still agree. -/
theorem remember
    (agree : snapshot.AgreeOn first second)
    (id : PinId)
    (type : DocUnion) :
    snapshot.AgreeOn { first with memo := (id, type) :: first.memo }
      { second with memo := (id, type) :: second.memo } where
  lookup_eq pin member := by
    rw [List.lookup_cons, List.lookup_cons, agree.lookup_eq pin member]
  cycles_eq := agree.cycles_eq
  overruns_eq := agree.overruns_eq

end AgreeOn

/-- Agreeing states find a known type alike, so only unknown pins are left to compare. -/
theorem Respects.of_unknown
    {limit : Nat}
    {active : List PinId}
    {pin : Pin}
    (asked : snapshot.Knows pin)
    (ofUnknown : ∀ first second, snapshot.AgreeOn first second →
      first.memo.knownType? pin = none → second.memo.knownType? pin = none →
        ((snapshot.typeOfPinWithin limit active pin).run first).1 =
            ((snapshot.typeOfPinWithin limit active pin).run second).1 ∧
          snapshot.AgreeOn ((snapshot.typeOfPinWithin limit active pin).run first).2
            ((snapshot.typeOfPinWithin limit active pin).run second).2) :
    snapshot.Respects (snapshot.typeOfPinWithin limit active pin) := by
  intro first second agree
  have sameKnown := agree.knownType?_eq asked
  cases isKnown : second.memo.knownType? pin with
  | some type =>
      rw [isKnown] at sameKnown
      rw [run_of_known sameKnown, run_of_known isKnown]
      exact ⟨rfl, agree⟩
  | none =>
      rw [isKnown] at sameKnown
      exact ofUnknown first second agree sameKnown isKnown

variable (listed : snapshot.index.IsListed)
include listed

/-- The inference of a pin reads only what is remembered for pins of the snapshot. -/
theorem respects_typeOfPinWithin
    (limit : Nat)
    (active : List PinId)
    {pin : Pin}
    (asked : snapshot.Knows pin) :
    snapshot.Respects (snapshot.typeOfPinWithin limit active pin) := by
  induction limit generalizing active pin with
  | zero =>
      refine .of_unknown asked fun first second agree unknown otherUnknown => ?_
      rw [run_of_tooDeep unknown, run_of_tooDeep otherUnknown]
      exact ⟨rfl, agree.lookup_eq, agree.cycles_eq, congrArg (· + 1) agree.overruns_eq⟩
  | succ limit inductionHypothesis =>
      refine .of_unknown asked fun first second agree unknown otherUnknown => ?_
      by_cases isActive : pin.id ∈ active
      · rw [run_of_cyclic unknown isActive, run_of_cyclic otherUnknown isActive]
        exact ⟨rfl, agree.lookup_eq, congrArg (· + 1) agree.cycles_eq, agree.overruns_eq⟩
      · obtain ⟨sameType, agreeInside⟩ :=
          Respects.follow (fun _ known => inductionHypothesis (pin.id :: active) known)
            (inferAnew_asksOnly listed pin) first second agree
        rw [run_of_opened unknown isActive (Prod.eta _).symm,
          run_of_opened otherUnknown isActive (Prod.eta _).symm, sameType, agreeInside.cutOffs_eq,
          agree.cutOffs_eq]
        refine ⟨rfl, ?_⟩
        split
        · exact agreeInside.remember pin.id _
        · exact agreeInside

/-- A query reads only what is remembered for pins of its snapshot. -/
theorem IsQuery.respects
    {α : Type}
    {query : Inferring α}
    (isQuery : snapshot.IsQuery query) :
    snapshot.Respects query := by
  induction isQuery with
  | answer result =>
      exact .pure result
  | infer asks =>
      exact .follow (fun _ asked => respects_typeOfPinWithin listed maxInferenceDepth [] asked) asks
  | @remembered pin member =>
      exact fun first second agree => ⟨agree.lookup_eq pin member, agree⟩
  | andThen isFirst areNext firstHypothesis nextHypothesis =>
      exact .bind firstHypothesis nextHypothesis

end Reading

end Snapshot

end TagCheck
