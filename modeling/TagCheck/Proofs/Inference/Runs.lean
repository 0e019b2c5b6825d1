import TagCheck.Proofs.Inference.Exact

namespace TagCheck

/-!
# Runs of inferences

A run starts from a memory and leaves a greater one.  If it starts from an exact memory, it leaves
an exact memory; and if it cuts nothing off, its result is settled and follows from the memory that
it leaves.  So only settled types are ever remembered.
-/

namespace Snapshot

variable {snapshot : Snapshot}

/--
How the type of a pin is found: it is known, or the inference is cut off, or the pin is opened.
Then the type is remembered if nothing was cut off inside.
-/
inductive PinRun (snapshot : Snapshot) (pin : Pin) (before : InferenceState) :
    (limit : Nat) → (active : List PinId) → DocUnion → InferenceState → Prop
  | known {limit : Nat} {active : List PinId} {type : DocUnion}
      (isKnown : before.memo.knownType? pin = some type) :
      PinRun snapshot pin before limit active type before
  | tooDeep {active : List PinId} (unknown : before.memo.knownType? pin = none) :
      PinRun snapshot pin before 0 active [] { before with overruns := before.overruns + 1 }
  | cyclic {limit : Nat} {active : List PinId} (unknown : before.memo.knownType? pin = none)
      (isActive : pin.id ∈ active) :
      PinRun snapshot pin before (limit + 1) active [] { before with cycles := before.cycles + 1 }
  | remembered {limit : Nat} {active : List PinId} {type : DocUnion} {after : InferenceState}
      (unknown : before.memo.knownType? pin = none) (notActive : pin.id ∉ active)
      (inside :
        ((snapshot.inferAnew pin).follow
          (snapshot.typeOfPinWithin limit (pin.id :: active))).run before = (type, after))
      (uncut : after.cutOffs = before.cutOffs) (isRemembered : pin.isRemembered = true) :
      PinRun snapshot pin before (limit + 1) active type
        { after with memo := (pin.id, type) :: after.memo }
  | forgotten {limit : Nat} {active : List PinId} {type : DocUnion} {after : InferenceState}
      (unknown : before.memo.knownType? pin = none) (notActive : pin.id ∉ active)
      (inside :
        ((snapshot.inferAnew pin).follow
          (snapshot.typeOfPinWithin limit (pin.id :: active))).run before = (type, after))
      (cutOrCore : after.cutOffs = before.cutOffs → pin.isRemembered = false) :
      PinRun snapshot pin before (limit + 1) active type after

/-- What is known is not inferred. -/
theorem run_unlessKnown_of_known
    {pin : Pin}
    {infer : Inferring DocUnion}
    {before : InferenceState}
    {type : DocUnion}
    (isKnown : before.memo.knownType? pin = some type) :
    (Inferring.unlessKnown pin infer).run before = (type, before) := by
  unfold Inferring.unlessKnown
  by_cases declared : pin.declared.isDefined = true
  · have declaredType : pin.declaredType? = some pin.declared :=
      if_pos declared
    rw [Memo.knownType?_of_declared declaredType] at isKnown
    cases isKnown
    rw [if_pos declared]
    rfl
  · have undeclared : pin.declaredType? = none :=
      if_neg declared
    rw [Memo.knownType?_of_undeclared undeclared] at isKnown
    rw [if_neg declared]
    simp only [Inferring.remembered?, bind_pure_comp, StateT.run_bind, StateT.run_map,
      StateT.run_get, pure_bind, map_pure, isKnown]
    rfl

/-- What is not known is inferred. -/
theorem run_unlessKnown_of_unknown
    {pin : Pin}
    {infer : Inferring DocUnion}
    {before : InferenceState}
    (unknown : before.memo.knownType? pin = none) :
    (Inferring.unlessKnown pin infer).run before = infer.run before := by
  have undeclared := Memo.undeclared_of_unknown unknown
  rw [Memo.knownType?_of_undeclared undeclared] at unknown
  have notDefined : ¬ pin.declared.isDefined = true := by
    intro declared
    simp [PinOf.declaredType?, declared] at undeclared
  unfold Inferring.unlessKnown
  rw [if_neg notDefined]
  simp [Inferring.remembered?, unknown]

/-- What is inferred is remembered if nothing was cut off, and if the pin has a memory. -/
theorem run_rememberUncut
    {pin : Pin}
    {infer : Inferring DocUnion}
    {before after : InferenceState}
    {type : DocUnion}
    (inside : infer.run before = (type, after)) :
    (Inferring.rememberUncut pin infer).run before =
      (type,
        if after.cutOffs = before.cutOffs && pin.isRemembered then
          { after with memo := (pin.id, type) :: after.memo }
        else
          after) := by
  unfold Inferring.rememberUncut
  simp only [StateT.run_bind, StateT.run_get, pure_bind, inside]
  change
    StateT.run
      (if after.cutOffs = before.cutOffs && pin.isRemembered then do
        Inferring.remember pin type
        pure type
      else
        pure type) after = _
  split <;> rfl

section Ways

variable {limit : Nat} {active : List PinId} {pin : Pin} {before : InferenceState}

/-- A known type is found at once. -/
theorem run_of_known
    {type : DocUnion}
    (isKnown : before.memo.knownType? pin = some type) :
    (snapshot.typeOfPinWithin limit active pin).run before = (type, before) := by
  cases limit <;> exact run_unlessKnown_of_known isKnown

/-- An unknown pin is given up when no more inferences may be nested. -/
theorem run_of_tooDeep
    (unknown : before.memo.knownType? pin = none) :
    (snapshot.typeOfPinWithin 0 active pin).run before =
      ([], { before with overruns := before.overruns + 1 }) :=
  run_unlessKnown_of_unknown unknown

/-- An unknown pin is given up when it is under way. -/
theorem run_of_cyclic
    (unknown : before.memo.knownType? pin = none)
    (isActive : pin.id ∈ active) :
    (snapshot.typeOfPinWithin (limit + 1) active pin).run before =
      ([], { before with cycles := before.cycles + 1 }) := by
  unfold typeOfPinWithin
  rw [run_unlessKnown_of_unknown unknown, if_pos isActive]
  rfl

/-- Any other unknown pin is opened. -/
theorem run_of_opened
    (unknown : before.memo.knownType? pin = none)
    (notActive : pin.id ∉ active)
    {type : DocUnion}
    {after : InferenceState}
    (inside :
      ((snapshot.inferAnew pin).follow
        (snapshot.typeOfPinWithin limit (pin.id :: active))).run before = (type, after)) :
    (snapshot.typeOfPinWithin (limit + 1) active pin).run before =
      (type,
        if after.cutOffs = before.cutOffs && pin.isRemembered then
          { after with memo := (pin.id, type) :: after.memo }
        else
          after) := by
  unfold typeOfPinWithin
  rw [run_unlessKnown_of_unknown unknown, if_neg notActive]
  exact run_rememberUncut inside

end Ways

/-- Every run for the type of a pin takes one of the ways. -/
theorem exists_pinRun
    (limit : Nat)
    (active : List PinId)
    (pin : Pin)
    (before : InferenceState) :
    ∃ type after, (snapshot.typeOfPinWithin limit active pin).run before = (type, after) ∧
      snapshot.PinRun pin before limit active type after := by
  cases isKnown : before.memo.knownType? pin with
  | some type =>
      exact ⟨_, _, run_of_known isKnown, .known isKnown⟩
  | none =>
      cases limit with
      | zero =>
          exact ⟨_, _, run_of_tooDeep isKnown, .tooDeep isKnown⟩
      | succ limit =>
          by_cases isActive : pin.id ∈ active
          · exact ⟨_, _, run_of_cyclic isKnown isActive, .cyclic isKnown isActive⟩
          · refine ⟨_, _, run_of_opened isKnown isActive (Prod.eta _).symm, ?_⟩
            split
            · next uncut =>
                simp only [Bool.and_eq_true, decide_eq_true_eq] at uncut
                exact .remembered isKnown isActive rfl uncut.1 uncut.2
            · next cutOrCore =>
                refine .forgotten isKnown isActive rfl ?_
                intro uncut
                simpa [uncut] using cutOrCore

/-- What a run from an exact memory leads to. -/
structure Advances (snapshot : Snapshot) (inquiry : Inquiry α) (before : InferenceState)
    (result : α) (after : InferenceState) : Prop where
  isExact : snapshot.IsExact after.memo
  within : before.memo.IsWithin after.memo
  cycles_le : before.cycles ≤ after.cycles
  overruns_le : before.overruns ≤ after.overruns
  settles : after.cutOffs = before.cutOffs → snapshot.Settles inquiry result
  recalls : after.cutOffs = before.cutOffs → snapshot.Recalls after.memo inquiry result

/-- Each question to a source runs from exact memories to exact memories. -/
def IsAdvancing (snapshot : Snapshot) (source : Pin → Inferring DocUnion) : Prop :=
  ∀ pin, snapshot.Knows pin → ∀ before : InferenceState, snapshot.IsExact before.memo →
    snapshot.Advances (.typeOf pin) before ((source pin).run before).1 ((source pin).run before).2

/-- A run without questions changes nothing. -/
theorem Advances.answer
    {before : InferenceState}
    (isExact : snapshot.IsExact before.memo)
    (result : α) :
    snapshot.Advances (.answer result) before result before where
  isExact := isExact
  within := .refl before.memo
  cycles_le := Nat.le_refl _
  overruns_le := Nat.le_refl _
  settles _ := .answer result
  recalls _ := .answer result

section Built

variable (built : snapshot.IsBuilt)
include built

/-- The run of a question is followed by the run of the rest. -/
theorem Advances.ask
    {pin : Pin}
    {next : DocUnion → Inquiry α}
    {before middle after : InferenceState}
    {type : DocUnion}
    {result : α}
    (asked : snapshot.Knows pin)
    (first : snapshot.Advances (.typeOf pin) before type middle)
    (rest : snapshot.Advances (next type) middle result after) :
    snapshot.Advances (.ask pin next) before result after := by
  have cycles := Nat.le_trans first.cycles_le rest.cycles_le
  have overruns := Nat.le_trans first.overruns_le rest.overruns_le
  have bothUncut :
      after.cutOffs = before.cutOffs →
        middle.cutOffs = before.cutOffs ∧ after.cutOffs = middle.cutOffs := by
    have := first.cycles_le
    have := first.overruns_le
    have := rest.cycles_le
    have := rest.overruns_le
    simp only [InferenceState.cutOffs]
    omega
  refine ⟨rest.isExact, first.within.trans rest.within, cycles, overruns, ?_, ?_⟩
  · intro uncut
    obtain ⟨firstUncut, restUncut⟩ := bothUncut uncut
    exact .ask (first.settles firstUncut) (rest.settles restUncut)
  · intro uncut
    obtain ⟨firstUncut, restUncut⟩ := bothUncut uncut
    refine .ask ?_ (rest.recalls restUncut)
    exact IsSettled.recalls_mono built first.isExact.settled rest.isExact.settled rest.within
      (.typeOf asked) (first.recalls firstUncut)

/-- If single questions run from exact memories to exact memories, so do inquiries. -/
theorem IsAdvancing.follow
    {source : Pin → Inferring DocUnion}
    (advancing : snapshot.IsAdvancing source)
    {inquiry : Inquiry α}
    (asks : inquiry.AsksOnly snapshot.Knows)
    {before : InferenceState}
    (isExact : snapshot.IsExact before.memo) :
    snapshot.Advances inquiry before ((inquiry.follow source).run before).1
      ((inquiry.follow source).run before).2 := by
  induction inquiry generalizing before with
  | answer result =>
      exact .answer isExact result
  | ask pin next inductionHypothesis =>
      have first := advancing pin asks.1 before isExact
      exact .ask built asks.1 first (inductionHypothesis _ (asks.2 _) first.isExact)

omit built in
/-- A known type is found without any change. -/
theorem Advances.known
    {pin : Pin}
    (asked : snapshot.Knows pin)
    {before : InferenceState}
    (isExact : snapshot.IsExact before.memo)
    {type : DocUnion}
    (isKnown : before.memo.knownType? pin = some type) :
    snapshot.Advances (.typeOf pin) before type before where
  isExact := isExact
  within := .refl before.memo
  cycles_le := Nat.le_refl _
  overruns_le := Nat.le_refl _
  settles _ := isExact.settled.settles_known asked isKnown
  recalls _ := .typeOf_known isKnown

omit built in
/-- A cut-off leaves the memory as it is. -/
theorem Advances.cutOff
    {inquiry : Inquiry α}
    {before : InferenceState}
    (isExact : snapshot.IsExact before.memo)
    {cycles overruns : Nat}
    (cycles_le : before.cycles ≤ cycles)
    (overruns_le : before.overruns ≤ overruns)
    (cut : before.cycles + before.overruns < cycles + overruns)
    (result : α) :
    snapshot.Advances inquiry before result ⟨before.memo, cycles, overruns⟩ where
  isExact := isExact
  within := .refl before.memo
  cycles_le := cycles_le
  overruns_le := overruns_le
  settles uncut := absurd uncut (Nat.ne_of_gt cut)
  recalls uncut := absurd uncut (Nat.ne_of_gt cut)

/-- The type of an opened pin is remembered if the inference of the pin was not cut off. -/
theorem Advances.remembered
    {pin : Pin}
    (asked : snapshot.Knows pin)
    {before after : InferenceState}
    {type : DocUnion}
    (unknown : before.memo.knownType? pin = none)
    (inside : snapshot.Advances (snapshot.inferAnew pin) before type after)
    (uncut : after.cutOffs = before.cutOffs) :
    snapshot.Advances (.typeOf pin) before type
      { after with memo := (pin.id, type) :: after.memo } := by
  have undeclared := Memo.undeclared_of_unknown unknown
  have settles : snapshot.Settles (.typeOf pin) type :=
    .typeOf_opened undeclared rfl (inside.settles uncut)
  have isExact : snapshot.IsExact ((pin.id, type) :: after.memo) :=
    inside.isExact.cons built (asked.mem_pins undeclared) settles (inside.recalls uncut)
  refine
    { isExact
      within := inside.within.trans (after.memo.isWithin_cons pin.id type)
      cycles_le := inside.cycles_le
      overruns_le := inside.overruns_le
      settles := fun _ => settles
      recalls := fun _ => .typeOf_known ?_ }
  rw [Memo.knownType?_of_undeclared undeclared]
  exact List.lookup_cons_self

omit built in
/-- The type of an opened pin without a memory follows from the memory that is left. -/
theorem Advances.forgotten
    {pin : Pin}
    (asked : snapshot.Knows pin)
    {before after : InferenceState}
    {type : DocUnion}
    (unknown : before.memo.knownType? pin = none)
    (inside : snapshot.Advances (snapshot.inferAnew pin) before type after)
    (cutOrCore : after.cutOffs = before.cutOffs → pin.isRemembered = false) :
    snapshot.Advances (.typeOf pin) before type after := by
  have undeclared := Memo.undeclared_of_unknown unknown
  have settles :
      after.cutOffs = before.cutOffs → snapshot.Settles (.typeOf pin) type :=
    fun uncut => .typeOf_opened undeclared rfl (inside.settles uncut)
  refine ⟨inside.isExact, inside.within, inside.cycles_le, inside.overruns_le, settles, ?_⟩
  intro uncut
  cases found : after.memo.knownType? pin with
  | none =>
      refine .typeOf_opened found ?_ (inside.recalls uncut)
      rw [cutOrCore uncut]
      rfl
  | some other =>
      have same : type = other :=
        (settles uncut).unique (inside.isExact.settled.settles_known asked found)
      rw [same]
      exact .typeOf_known found

/-- Every question about a pin runs from exact memories to exact memories. -/
theorem isAdvancing_typeOfPinWithin
    (limit : Nat)
    (active : List PinId) :
    snapshot.IsAdvancing (snapshot.typeOfPinWithin limit active) := by
  intro pin asked before isExact
  induction limit generalizing active pin before with
  | zero =>
      obtain ⟨type, after, outcome, run⟩ := snapshot.exists_pinRun 0 active pin before
      rw [outcome]
      cases run with
      | known isKnown =>
          exact .known asked isExact isKnown
      | tooDeep =>
          exact .cutOff isExact (Nat.le_refl _) (Nat.le_succ _) (by omega) []
  | succ limit inductionHypothesis =>
      have advancing : snapshot.IsAdvancing (snapshot.typeOfPinWithin limit (pin.id :: active)) :=
        inductionHypothesis (pin.id :: active)
      have inner := advancing.follow built (inferAnew_asksOnly built.listed pin) isExact
      obtain ⟨type, after, outcome, run⟩ := snapshot.exists_pinRun (limit + 1) active pin before
      rw [outcome]
      cases run with
      | known isKnown =>
          exact .known asked isExact isKnown
      | cyclic =>
          exact .cutOff isExact (Nat.le_succ _) (Nat.le_refl _) (by omega) []
      | remembered unknown _ ran uncut _ =>
          rw [ran] at inner
          exact .remembered built asked unknown inner uncut
      | forgotten unknown _ ran cutOrCore =>
          rw [ran] at inner
          exact .forgotten asked unknown inner cutOrCore

end Built

end Snapshot

end TagCheck
